import DualSeal.Proofs.Crypto.Multiples
import DualSeal.Proofs.Keys.Text

/-!
# The order of the base point

The base point has order `n`: its multiple by `n` is at infinity, and `n` is a prime, which is
certified as the size of the field is. So every number from one to `n - 1` has a key pair, and two
key pairs agree on a point in an exchange, each from its own number and the other's point
(`KeyPair.exists_exchange`).
-/

namespace DualSeal

namespace P256

/-- The primes that the certificates of `n` start from. -/
def orderPrimes : List Nat :=
  [2, 3, 5, 7, 11, 17, 29, 43, 71, 127, 131, 311, 373, 1297, 3023, 3407, 16879, 17449, 38189,
    126241, 3969899, 187019741, 191039911]

theorem prime_of_mem_orderPrimes : ∀ q ∈ orderPrimes, q.Prime := by
  norm_num [orderPrimes]

/-- The certificate of `n`, after those of large factors. -/
def orderCertificates : List LucasCertificate :=
  [⟨311245691, 2, [2, 5, 7, 17, 29, 29, 311]⟩,
    ⟨622491383, 5, [2, 311245691]⟩,
    ⟨1002328039319, 19, [2, 126241, 3969899]⟩,
    ⟨208150935158385979, 2, [2, 3, 11, 43, 127, 3023, 191039911]⟩,
    ⟨2624747550333869278416773953, 7,
      [2, 2, 2, 2, 2, 2, 3, 3, 1297, 16879, 208150935158385979]⟩,
    ⟨n, 7, [2, 2, 2, 2, 3, 71, 131, 373, 3407, 17449, 38189, 187019741, 622491383, 1002328039319,
      2624747550333869278416773953]⟩]

/-- **The order is prime.** -/
theorem prime_n : n.Prime := by
  have hchain : LucasCertificate.Chain orderPrimes orderCertificates := by decide +kernel
  exact hchain.prime prime_of_mem_orderPrimes _ (List.getLast_mem (List.cons_ne_nil _ _))

theorem n_lt : n < 2 ^ 256 := by decide

theorem addOrderOf_base : addOrderOf base.element = n := by
  have : Fact n.Prime := ⟨prime_n⟩
  have hinfinity : mul? n base = none := by decide +kernel
  refine addOrderOf_eq_prime ?_ base.element_ne_zero
  rw [← element?_mul? base n_lt, hinfinity]
  rfl

theorem nsmul_base_eq_zero_iff {k : Nat} : k • base.element = 0 ↔ n ∣ k := by
  rw [← addOrderOf_dvd_iff_nsmul_eq_zero, addOrderOf_base]

theorem exists_mul?_base {k : Nat} (hpos : 0 < k) (hlt : k < n) :
    ∃ point, mul? k base = some point := by
  rw [← Option.isSome_iff_exists, Option.isSome_iff_ne_none]
  intro hnone
  have h := element?_mul? base (hlt.trans n_lt)
  rw [hnone] at h
  exact Nat.not_dvd_of_pos_of_lt hpos hlt (nsmul_base_eq_zero_iff.mp h.symm)

end P256

namespace KeyPair

open P256

/-- **Every number has its key pair**, from one to `n - 1`. -/
theorem exists_ofSecret? {secret : Nat} (hpos : 0 < secret) (hlt : secret < n) :
    ∃ pair, ofSecret? secret = some pair := by
  obtain ⟨point, hpoint⟩ := exists_mul?_base hpos hlt
  exact ⟨_, ofSecret?_secret ⟨secret, ⟨point⟩, hpos, hlt, hpoint⟩⟩

theorem element_publicKey (pair : KeyPair) :
    pair.publicKey.point.element = pair.secret • base.element := by
  have h := element?_mul? base (pair.secret_lt.trans n_lt)
  rwa [pair.public_eq] at h

/-- **The exchange.** Each of two key pairs finds the same point from the other's public key. -/
theorem exists_exchange (a b : KeyPair) : ∃ exchange,
    mul? a.secret b.publicKey.point = some exchange ∧
      mul? b.secret a.publicKey.point = some exchange := by
  have ha := element?_mul? b.publicKey.point (a.secret_lt.trans n_lt)
  have hb := element?_mul? a.publicKey.point (b.secret_lt.trans n_lt)
  rw [element_publicKey, ← mul_nsmul'] at ha hb
  rw [Nat.mul_comm, ← ha] at hb
  have hagree := Point.element?_injective hb
  cases heq : mul? a.secret b.publicKey.point with
  | none =>
    rw [heq] at ha
    have hdvd := nsmul_base_eq_zero_iff.mp ha.symm
    rcases prime_n.dvd_mul.mp hdvd with h | h
    · exact absurd h (Nat.not_dvd_of_pos_of_lt a.secret_pos a.secret_lt)
    · exact absurd h (Nat.not_dvd_of_pos_of_lt b.secret_pos b.secret_lt)
  | some exchange => exact ⟨exchange, rfl, hagree.trans heq⟩

end KeyPair

end DualSeal

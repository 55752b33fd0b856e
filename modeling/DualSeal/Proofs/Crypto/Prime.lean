import DualSeal.Crypto.P256
import Mathlib.NumberTheory.LucasPrimality
import Mathlib.Tactic.NormNum.Prime

/-!
# The size of the field is a prime

Whether a number has two square roots at most, and whether Fermat's inverse is one, rests on the
size of the field being prime. It is proved by Lucas's test, from a number whose powers come to one
for no proper divisor of `p - 1`; the prime factors of `p - 1` are certified in the same way, down
to numbers that trial division settles (`smallPrimes`). One evaluation goes through the chain of
certificates.

Powers are computed as the library computes its own, from the most significant digit of the
exponent down. What that comes to is one fact about any multiplication (`map_powWith`).
-/

namespace DualSeal

/-! ## Powers by squaring -/

/-- The power of `x` to the number whose last `bits` binary digits `exponent` has, with this
multiplication. -/
def powWith {α : Type} (mul : α → α → α) (x : α) (exponent : Nat) : (bits : Nat) → (product : α) → α
  | 0, product => product
  | bits + 1, product =>
    let square := mul product product
    powWith mul x exponent bits (if exponent.testBit bits then mul square x else square)

theorem mod_two_pow_succ (k bits : Nat) :
    k % 2 ^ (bits + 1) = k % 2 ^ bits + if k.testBit bits then 2 ^ bits else 0 := by
  rw [Nat.mod_pow_succ, Nat.testBit_eq_decide_div_mod_eq]
  rcases Nat.mod_two_eq_zero_or_one (k / 2 ^ bits) with h | h <;> simp [h]

/-- What is multiplied up is squared once for every digit to come. -/
theorem map_powWith {α M : Type} [CommMonoid M] {mul : α → α → α} {f : α → M}
    (hmul : ∀ a b, f (mul a b) = f a * f b) (x : α) (exponent bits : Nat) (product : α) :
    f (powWith mul x exponent bits product)
      = f product ^ 2 ^ bits * f x ^ (exponent % 2 ^ bits) := by
  induction bits generalizing product with
  | zero => rw [powWith, Nat.pow_zero, Nat.mod_one, pow_zero, pow_one, mul_one]
  | succ bits ih =>
    have hsquare : (f product ^ 2) ^ 2 ^ bits = f product ^ 2 ^ (bits + 1) := by
      rw [← pow_mul, ← Nat.pow_succ']
    rw [powWith, ih, mod_two_pow_succ]
    cases exponent.testBit bits with
    | false => rw [if_neg Bool.false_ne_true, if_neg Bool.false_ne_true, hmul, ← sq, hsquare,
        Nat.add_zero (exponent % 2 ^ bits)]
    | true => rw [if_pos rfl, if_pos rfl, hmul, hmul, ← sq, mul_pow, hsquare, pow_add (f x),
        mul_assoc, mul_comm (f x ^ 2 ^ bits)]

/-- The power modulo `m`, for an exponent below 2^256. -/
def powMod (m x exponent : Nat) : Nat := powWith (fun a b ↦ a * b % m) x exponent 256 1

theorem powWith_lt {m product : Nat} (x exponent bits : Nat) (h : product < m) :
    powWith (fun a b ↦ a * b % m) x exponent bits product < m := by
  have hpos : 0 < m := Nat.zero_lt_of_lt h
  induction bits generalizing product with
  | zero => exact h
  | succ bits ih =>
    refine ih ?_
    split <;> exact Nat.mod_lt _ hpos

theorem powMod_eq {m exponent : Nat} (x : Nat) (hm : 1 < m) (h : exponent < 2 ^ 256) :
    powMod m x exponent = x ^ exponent % m := by
  have hcast : ((powMod m x exponent : Nat) : ZMod m) = (x ^ exponent : Nat) := by
    have hmul : ∀ a b : Nat, ((a * b % m : Nat) : ZMod m) = a * b := fun a b ↦ by
      rw [ZMod.natCast_mod, Nat.cast_mul]
    rw [powMod, map_powWith hmul, Nat.cast_one, one_pow, one_mul, Nat.mod_eq_of_lt h, Nat.cast_pow]
  have hlt : powMod m x exponent < m := powWith_lt x exponent 256 hm
  rwa [ZMod.natCast_eq_natCast_iff', Nat.mod_eq_of_lt hlt] at hcast

/-! ## Lucas's test -/

/-- A number is prime if a number's power to the next smaller one is one, and its powers to the
cofactors of that one's prime factors are not. -/
theorem prime_of_powMod {m : Nat} (x : Nat) (factors : List Nat) (hm : 1 < m)
    (hbits : m ≤ 2 ^ 256) (hproduct : factors.prod = m - 1) (hprime : ∀ q ∈ factors, q.Prime)
    (hone : powMod m x (m - 1) = 1)
    (hfactors : ∀ q ∈ factors, powMod m x ((m - 1) / q) ≠ 1) : m.Prime := by
  have hpow : ∀ exponent < 2 ^ 256, (x : ZMod m) ^ exponent = 1
      ↔ powMod m x exponent = 1 := by
    intro exponent h
    rw [powMod_eq x hm h, ← Nat.cast_pow, ← Nat.cast_one, ZMod.natCast_eq_natCast_iff',
      Nat.mod_eq_of_lt hm]
  refine lucas_primality m x ((hpow _ (by omega)).mpr hone) fun q hq hdvd ↦ ?_
  -- A prime that divides the product is one of the factors.
  have hmem : q ∈ factors := by
    obtain ⟨r, hr, hdvd⟩ := (Prime.dvd_prod_iff hq.prime).mp (hproduct ▸ hdvd)
    rwa [(Nat.prime_dvd_prime_iff_eq hq (hprime r hr)).mp hdvd]
  have hlt : (m - 1) / q < 2 ^ 256 := (Nat.div_le_self _ _).trans_lt (by omega)
  rw [ne_eq, hpow _ hlt]
  exact hfactors q hmem

/-- What the test needs to know of a number besides that the factors are primes. -/
structure LucasCertificate where
  number : Nat
  base : Nat
  factors : List Nat

namespace LucasCertificate

/-- The number passes the test, with primes among these. -/
def Holds (certificate : LucasCertificate) (primes : List Nat) : Prop :=
  let ⟨m, x, factors⟩ := certificate
  1 < m ∧ m ≤ 2 ^ 256 ∧ factors.prod = m - 1 ∧ (∀ q ∈ factors, q ∈ primes) ∧
    powMod m x (m - 1) = 1 ∧ ∀ q ∈ factors, powMod m x ((m - 1) / q) ≠ 1

instance (certificate : LucasCertificate) (primes : List Nat) :
    Decidable (certificate.Holds primes) :=
  inferInstanceAs (Decidable (_ ∧ _))

theorem Holds.prime {certificate : LucasCertificate} {primes : List Nat}
    (h : certificate.Holds primes) (hprimes : ∀ q ∈ primes, q.Prime) :
    certificate.number.Prime := by
  obtain ⟨hm, hbits, hproduct, hmem, hone, hfactors⟩ := h
  exact prime_of_powMod _ _ hm hbits hproduct (fun q hq ↦ hprimes q (hmem q hq)) hone hfactors

/-- Each number passes the test with the primes and the numbers before it. -/
def Chain (primes : List Nat) : List LucasCertificate → Prop
  | [] => True
  | certificate :: rest => certificate.Holds primes ∧ Chain (certificate.number :: primes) rest

instance decidableChain (primes : List Nat) :
    (certificates : List LucasCertificate) → Decidable (Chain primes certificates)
  | [] => inferInstanceAs (Decidable True)
  | certificate :: rest =>
    have := decidableChain (certificate.number :: primes) rest
    inferInstanceAs (Decidable (_ ∧ _))

theorem Chain.prime {primes : List Nat} {certificates : List LucasCertificate}
    (h : Chain primes certificates) (hprimes : ∀ q ∈ primes, q.Prime) :
    ∀ certificate ∈ certificates, certificate.number.Prime := by
  induction certificates generalizing primes with
  | nil => exact List.forall_mem_nil _
  | cons certificate rest ih =>
    obtain ⟨hfirst, hrest⟩ := h
    have hprime := hfirst.prime hprimes
    exact List.forall_mem_cons.mpr
      ⟨hprime, ih hrest (List.forall_mem_cons.mpr ⟨hprime, hprimes⟩)⟩

end LucasCertificate

/-! ## The prime -/

namespace P256

/-- The primes that certificates start from. -/
def smallPrimes : List Nat :=
  [2, 3, 5, 7, 17, 23, 53, 173, 197, 257, 641, 1531, 2411, 3677, 18169, 65537, 78283, 490463,
    704251, 6700417, 204061199]

theorem prime_of_mem_smallPrimes : ∀ q ∈ smallPrimes, q.Prime := by
  norm_num [smallPrimes]

/-- The certificate of the size of the field, after those of large factors. -/
def certificates : List LucasCertificate :=
  [⟨34282281433, 17, [2, 2, 2, 3, 7, 204061199]⟩,
    ⟨66417393611, 6, [2, 5, 53, 173, 197, 3677]⟩,
    ⟨11290956913871, 13, [2, 5, 17, 66417393611]⟩,
    ⟨46076956964474543, 5, [2, 23, 18169, 78283, 704251]⟩,
    ⟨774023187263532362759620327192479577272145303, 3,
      [2, 3, 3, 2411, 34282281433, 11290956913871, 46076956964474543]⟩,
    ⟨835945042244614951780389953367877943453916927241, 11,
      [2, 2, 2, 3, 3, 3, 5, 774023187263532362759620327192479577272145303]⟩,
    ⟨p, 6, [2, 3, 5, 5, 17, 257, 641, 1531, 65537, 490463, 6700417,
      835945042244614951780389953367877943453916927241]⟩]

/-- **The size of the field is prime.** -/
theorem prime_p : p.Prime := by
  have hchain : LucasCertificate.Chain smallPrimes certificates := by decide +kernel
  exact hchain.prime prime_of_mem_smallPrimes _ (List.getLast_mem (List.cons_ne_nil _ _))

end P256

end DualSeal

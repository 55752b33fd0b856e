import DualSeal.Proofs.Crypto.Gcm
import DualSeal.Proofs.Crypto.Order
import DualSeal.Proofs.Envelope.RoundTrip
import DualSeal.Secret.Hpke

/-!
# A key pair opens what is encrypted for it

A ciphertext is a public key and a sealed text, and it is cut again where they meet, because the
encoding of a point has one length. Both sides of the exchange find the same point
(`KeyPair.exists_exchange`), and so they derive the same key and nonce and seal and open under
these (`decrypt_encryptWith`). What is opened has a fresh key and a tag in front and behind, so
that its length is that of the ciphertext less eighty-one (`length_of_decrypt_eq_ok`).
-/

namespace DualSeal

/-! ## Lengths of derived keys -/

@[simp] theorem Hmac.length_tag (key message : Bytes) : (Hmac.tag key message).length = 32 :=
  Sha256.length_digest _

theorem Hkdf.length_blocks (key info : Bytes) (count index : Nat) (previous : Bytes) :
    (Hkdf.blocks key info count index previous).length = 32 * count := by
  induction count generalizing index previous with
  | zero => rfl
  | succ count ih =>
    rw [blocks, List.length_append, ih, Hmac.length_tag, Nat.mul_succ, Nat.add_comm]

theorem Hkdf.length_expand (key info : Bytes) (length : Nat) :
    (Hkdf.expand key info length).length = length := by
  rw [expand, List.length_take, length_blocks]
  omega

namespace Hpke

theorem length_schedule (secret : Bytes) :
    (schedule secret).1.length = 32 ∧ (schedule secret).2.length = 12 :=
  ⟨Hkdf.length_expand _ _ _, Hkdf.length_expand _ _ _⟩

/-! ## Opening -/

theorem ofUncompressed?_encode (point : P256.Point) :
    P256.Point.ofUncompressed? point.encode = some point := by
  have hform : point.encode.head? = some 0x04 := rfl
  rw [P256.Point.ofUncompressed?, if_pos hform, P256.Point.decode?_encode]

/-- **Opening.** The ciphertext is long enough, the key in front of it is good for an exchange, and
the rest is opened under what is derived from that. -/
theorem decrypt_eq_ok_iff {ciphertext : Bytes} {pair : KeyPair} {share : Share} :
    decrypt ciphertext pair = .ok share ↔
      encapsulationLength + tagLength < ciphertext.length ∧ ∃ exchange,
        (P256.Point.ofUncompressed? (ciphertext.take encapsulationLength)).bind
          (P256.mul? pair.secret) = some exchange ∧
        let message := schedule (sharedSecret exchange (ciphertext.take encapsulationLength)
          pair.publicKey.bytes)
        Gcm.decrypt? message.1 message.2 [] (ciphertext.drop encapsulationLength)
          = some share.bytes := by
  have hsealed : (ciphertext.drop encapsulationLength).length
      = ciphertext.length - encapsulationLength := List.length_drop
  rw [decrypt]
  constructor
  · intro h
    split at h
    · cases h
    · dsimp only at h
      split at h
      · cases h
      · rename_i exchange hexchange
        split at h
        · cases h
        · split at h
          · rename_i bytes hbytes
            obtain rfl := Except.ok.inj h
            exact ⟨by omega, exchange, hexchange, hbytes⟩
          · cases h
  · rintro ⟨hlength, exchange, hexchange, hopened⟩
    rw [if_neg (by omega)]
    dsimp only at hopened ⊢
    rw [hexchange]
    dsimp only
    rw [if_neg (by omega), hopened]

theorem decrypt_of_length_le {ciphertext : Bytes} (h : ciphertext.length ≤ encapsulationLength)
    (pair : KeyPair) : decrypt ciphertext pair
      = .error (.invalidInput
          ("ciphertext too short: " ++ toString ciphertext.length ++ " bytes")) :=
  if_pos h

theorem length_of_decrypt_eq_ok {ciphertext : Bytes} {pair : KeyPair} {share : Share}
    (h : decrypt ciphertext pair = .ok share) :
    share.bytes ≠ [] ∧ share.size + (encapsulationLength + tagLength) = ciphertext.length := by
  obtain ⟨hlength, exchange, -, hopened⟩ := decrypt_eq_ok_iff.mp h
  obtain ⟨hkey, hnonce⟩ := length_schedule
    (sharedSecret exchange (ciphertext.take encapsulationLength) pair.publicKey.bytes)
  have hbytes := Gcm.length_of_decrypt?_eq_some hkey hnonce hopened
  have htag : Gcm.blockSize = tagLength := rfl
  rw [List.length_drop, htag] at hbytes
  refine ⟨List.length_pos_iff.mp (by omega), ?_⟩
  rw [Share.size]
  omega

/-! ## Opening what was encrypted -/

/-- What the key pair opens to the share, as long as the share with a fresh key and a tag. -/
def Holds (ciphertext : Bytes) (share : Share) (pair : KeyPair) : Prop :=
  ciphertext.length = encapsulationLength + share.size + tagLength ∧
    decrypt ciphertext pair = .ok share

/-- **Encrypting.** Under every fresh key pair a share that is not empty is encrypted. -/
theorem exists_encryptWith (fresh : KeyPair) {share : Share} (hshare : share.bytes ≠ [])
    (pair : KeyPair) :
    ∃ ciphertext, encryptWith fresh share pair.publicKey = .ok ciphertext ∧
      Holds ciphertext share pair := by
  obtain ⟨exchange, hsend, hreceive⟩ := KeyPair.exists_exchange fresh pair
  set message := schedule (sharedSecret exchange fresh.publicKey.bytes pair.publicKey.bytes)
    with hmessage
  obtain ⟨hkey, hnonce⟩ := length_schedule
    (sharedSecret exchange fresh.publicKey.bytes pair.publicKey.bytes)
  have hfresh : fresh.publicKey.bytes.length = encapsulationLength := P256.Point.length_encode _
  have hsealed : (Gcm.encrypt message.1 message.2 [] share.bytes).length
      = share.size + tagLength := Gcm.length_encrypt hkey hnonce share.bytes
  have hpos : 0 < share.size := List.length_pos_iff.mpr hshare
  refine ⟨fresh.publicKey.bytes ++ Gcm.encrypt message.1 message.2 [] share.bytes, ?_, ?_, ?_⟩
  · rw [encryptWith, hsend]
  · rw [List.length_append, hfresh, hsealed, Nat.add_assoc]
  · rw [decrypt_eq_ok_iff, List.length_append, hfresh, hsealed, List.take_left' hfresh,
      List.drop_left' hfresh]
    refine ⟨by omega, exchange, ?_, Gcm.decrypt?_encrypt hkey hnonce share.bytes⟩
    rw [PublicKey.bytes, ofUncompressed?_encode, Option.bind_some, hreceive]

theorem exists_freshPair? (entropy : Entropy) : ∃ fresh, freshPair? entropy = some fresh := by
  have hn : 1 < P256.n := by decide
  have hlt : Bytes.toNat (entropy.slice 0 48) % (P256.n - 1) < P256.n - 1 :=
    Nat.mod_lt _ (by omega)
  exact KeyPair.exists_ofSecret? (by omega) (by omega)

theorem exists_encrypt (entropy : Entropy) {share : Share} (hshare : share.bytes ≠ [])
    (pair : KeyPair) :
    ∃ ciphertext, encrypt entropy share pair.publicKey = .ok ciphertext ∧
      Holds ciphertext share pair := by
  obtain ⟨fresh, hfresh⟩ := exists_freshPair? entropy
  obtain ⟨ciphertext, hciphertext, hholds⟩ := exists_encryptWith fresh hshare pair
  refine ⟨ciphertext, ?_, hholds⟩
  rw [encrypt, hfresh]
  exact hciphertext

theorem shareEncryption_accepts (pair : KeyPair) : shareEncryption.Accepts pair.publicKey := by
  intro entropy share hshare
  obtain ⟨ciphertext, hciphertext, -⟩ := exists_encrypt entropy hshare pair
  exact ⟨ciphertext, hciphertext⟩

theorem shareEncryption_roundTrips (pair : KeyPair) :
    shareEncryption.RoundTrips pair.publicKey := by
  intro entropy share ciphertext hshare hencrypt
  obtain ⟨other, hother, hlength, -⟩ := exists_encrypt entropy hshare pair
  obtain rfl := Except.ok.inj (hencrypt.symm.trans hother)
  refine ⟨List.length_pos_iff.mp (by rw [hlength, encapsulationLength]; omega), ?_⟩
  intro owner howner
  obtain ⟨other, hother, -, hopened⟩ := exists_encrypt entropy hshare owner
  rw [howner] at hother
  obtain rfl := Except.ok.inj (hencrypt.symm.trans hother)
  exact hopened

/-- **Opening undoes encrypting, and opens nothing that is too short.** For every key pair: a share
that is not empty is encrypted for its key, whatever the fresh key pair and the random bytes, and
opened with it again; what is opened at all is a share that is not empty, shorter by a public key
and a tag; and what is no longer than a public key is refused before the key pair matters. -/
theorem opening_undoes_encrypting (pair : KeyPair) :
    (∀ share : Share, share.bytes ≠ [] →
      (∀ fresh : KeyPair, ∃ ciphertext, encryptWith fresh share pair.publicKey = .ok ciphertext ∧
        ciphertext.length = 65 + share.size + 16 ∧ decrypt ciphertext pair = .ok share) ∧
      ∀ entropy, ∃ ciphertext,
        shareEncryption.encrypt entropy share pair.publicKey = .ok ciphertext ∧
          ciphertext.length = 65 + share.size + 16 ∧
          shareEncryption.decrypt ciphertext pair = .ok share) ∧
    (∀ ciphertext share, decrypt ciphertext pair = .ok share →
      share.bytes ≠ [] ∧ 81 < ciphertext.length ∧ share.size = ciphertext.length - 81) ∧
    (∀ ciphertext : Bytes, ciphertext.length ≤ 81 →
      ∃ error, decrypt ciphertext pair = .error error) ∧
    ∀ ciphertext : Bytes, ciphertext.length ≤ 65 →
      ∃ reason, ∀ other, decrypt ciphertext other = .error (.invalidInput reason) := by
  have hopened : ∀ ciphertext share, decrypt ciphertext pair = .ok share →
      share.bytes ≠ [] ∧ 81 < ciphertext.length ∧ share.size = ciphertext.length - 81 := by
    intro ciphertext share h
    obtain ⟨hne, hlength⟩ := length_of_decrypt_eq_ok h
    have hpos : 0 < share.size := List.length_pos_iff.mpr hne
    rw [encapsulationLength, tagLength] at hlength
    exact ⟨hne, by omega, by omega⟩
  refine ⟨fun share hshare ↦ ⟨fun fresh ↦ exists_encryptWith fresh hshare pair,
    fun entropy ↦ exists_encrypt entropy hshare pair⟩, hopened, ?_, ?_⟩
  · intro ciphertext hlength
    cases h : decrypt ciphertext pair with
    | error error => exact ⟨error, rfl⟩
    | ok share => exact absurd (hopened ciphertext share h).2.1 (Nat.not_lt.mpr hlength)
  · exact fun ciphertext hlength ↦ ⟨_, decrypt_of_length_le hlength⟩

/-- A share of one byte is the shortest there is, and its ciphertext the shortest that is opened. -/
theorem opening_undoes_encrypting_one_byte :
    (∃ ciphertext, encryptWith KeyPair.two ⟨[0x07]⟩ KeyPair.one.publicKey = .ok ciphertext ∧
      ciphertext.length = 82 ∧ decrypt ciphertext KeyPair.one = .ok ⟨[0x07]⟩ ∧
      81 < ciphertext.length) ∧
    (∃ error, decrypt (List.replicate 81 0x04) KeyPair.one = .error error) ∧
    ∃ reason, decrypt (List.replicate 65 0x04) KeyPair.two = .error (.invalidInput reason) := by
  obtain ⟨hround, hopened, hshort, hshorter⟩ := opening_undoes_encrypting KeyPair.one
  obtain ⟨ciphertext, hencrypt, hlength, hdecrypt⟩ :=
    (hround ⟨[0x07]⟩ (List.cons_ne_nil _ _)).1 KeyPair.two
  obtain ⟨reason, hreason⟩ := hshorter (List.replicate 65 0x04) (by decide)
  exact ⟨⟨ciphertext, hencrypt, hlength, hdecrypt, (hopened _ _ hdecrypt).2.1⟩,
    hshort _ (by decide), reason, hreason KeyPair.two⟩

end Hpke

end DualSeal

import DualSeal.Secret.Encryption
import Mathlib.Data.List.Basic

/-!
# What is expected of a share encryption

Whoever encrypts shares for a key expects three things: that it works, that something comes out,
and that the key pair gets the share back. A key pair may also be told apart from others by what it
does not open. `ShareEncryption.labelled` meets the first three for all keys, and
`ShareEncryption.expecting` the last for all key pairs.
-/

namespace DualSeal.ShareEncryption

/-- Every share that is not empty can be encrypted for the key. -/
def Accepts (encryption : ShareEncryption) (key : PublicKey) : Prop :=
  ∀ (random : Entropy) (share : Share), share.bytes ≠ [] →
    ∃ ciphertext, encryption.encrypt random share key = .ok ciphertext

/-- What a share that is not empty is encrypted to is not empty either, and the key pairs of the
key get the share back. -/
def RoundTrips (encryption : ShareEncryption) (key : PublicKey) : Prop :=
  ∀ (random : Entropy) (share : Share) (ciphertext : Bytes), share.bytes ≠ [] →
    encryption.encrypt random share key = .ok ciphertext →
      ciphertext ≠ [] ∧
        ∀ pair : KeyPair, pair.publicKey = key → encryption.decrypt ciphertext pair = .ok share

/-- The key pair opens one ciphertext, to this share, and nothing else. -/
structure OpensOnly (encryption : ShareEncryption) (pair : KeyPair) (ciphertext : Bytes)
    (share : Share) : Prop where
  opens : encryption.decrypt ciphertext pair = .ok share
  refuses : ∀ other, other ≠ ciphertext → ∃ error, encryption.decrypt other pair = .error error

theorem OpensOnly.decrypt_eq_ok_iff {encryption : ShareEncryption} {pair : KeyPair}
    {ciphertext other : Bytes} {share opened : Share}
    (h : encryption.OpensOnly pair ciphertext share) :
    encryption.decrypt other pair = .ok opened ↔ other = ciphertext ∧ opened = share := by
  constructor
  · intro hopened
    by_cases heq : other = ciphertext
    · rw [heq, h.opens] at hopened
      exact ⟨heq, (Except.ok.inj hopened).symm⟩
    · obtain ⟨error, herror⟩ := h.refuses other heq
      rw [herror] at hopened
      cases hopened
  · rintro ⟨rfl, rfl⟩
    exact h.opens

/-- The encryption that hides nothing: the key's bytes in front of the share, which the key pair
compares with its own. -/
def labelled : ShareEncryption where
  encrypt _ share key := .ok (key.bytes ++ share.bytes)
  decrypt ciphertext pair :=
    match pair.publicKey.bytes.isPrefixOf? ciphertext with
    | some rest => .ok ⟨rest⟩
    | none => .error (.invalidInput "foreign label")

theorem labelled_accepts (key : PublicKey) : labelled.Accepts key := fun _ _ _ ↦ ⟨_, rfl⟩

theorem labelled_roundTrips (key : PublicKey) : labelled.RoundTrips key := by
  intro random share ciphertext hshare hencrypt
  cases hencrypt
  refine ⟨List.append_ne_nil_of_right_ne_nil _ hshare, ?_⟩
  rintro pair rfl
  have hlabel : pair.publicKey.bytes.isPrefixOf? (pair.publicKey.bytes ++ share.bytes)
      = some share.bytes := List.isPrefixOf?_eq_some_iff_append_eq.mpr rfl
  dsimp only [labelled]
  rw [hlabel]

/-- The same, but a key pair opens nothing except the one share that is expected for it. -/
def expecting (expected : PublicKey → Share) : ShareEncryption where
  encrypt _ share key := .ok (key.bytes ++ share.bytes)
  decrypt ciphertext pair :=
    if ciphertext = pair.publicKey.bytes ++ (expected pair.publicKey).bytes then
      .ok (expected pair.publicKey)
    else .error (.crypto "unexpected share")

theorem expecting_opensOnly (expected : PublicKey → Share) (pair : KeyPair) :
    (expecting expected).OpensOnly pair (pair.publicKey.bytes ++ (expected pair.publicKey).bytes)
      (expected pair.publicKey) where
  opens := by
    dsimp only [expecting]
    rw [if_pos rfl]
  refuses other h := by
    dsimp only [expecting]
    rw [if_neg h]
    exact ⟨_, rfl⟩

end DualSeal.ShareEncryption

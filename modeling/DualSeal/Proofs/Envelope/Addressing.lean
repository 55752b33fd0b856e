import DualSeal.Proofs.Envelope.RoundTrip
import DualSeal.Proofs.Secret.Canonicity

/-!
# Whom an envelope is addressed to

Nobody but the plan decides whom a share is encrypted for, and the plan takes a key only under its
own fingerprint. Whatever a lookup answers, an envelope that comes about is therefore read back as
one shard for the shared key and one for each recipient, every one of them encrypted for the key
that its address is the fingerprint of (`encryptSecret_wellAddressed`). Nothing is asked of the ids:
an id that would not survive the written form has no key that it is the fingerprint of.
-/

namespace DualSeal

/-! ## First occurrences -/

theorem Project.firstOccurrences_eq_eraseDups (seen ids : List KeyId) :
    firstOccurrences seen ids = (ids.filter fun id ↦ id ∉ seen).eraseDups := by
  induction ids generalizing seen with
  | nil => rfl
  | cons id ids ih =>
    rw [firstOccurrences]
    by_cases hseen : id ∈ seen
    · rw [if_pos hseen, ih, List.filter_cons_of_neg (by simpa using hseen)]
    · -- What is left out behind the first occurrence is what equals it, or was left out before.
      have hrest : (ids.filter fun other ↦ other ∉ id :: seen)
          = (ids.filter fun other ↦ other ∉ seen).filter fun other ↦ !other == id := by
        rw [List.filter_filter]
        refine List.filter_congr fun other _ ↦ ?_
        simp [not_or, beq_eq_decide]
      rw [if_neg hseen, ih, List.filter_cons_of_pos (by simpa using hseen), List.eraseDups_cons,
        hrest]

namespace Envelope

open Project

/-! ## Shares and recipients of a sealed secret -/

theorem splitInTwo_eq_ok_iff {threshold : ThresholdScheme} {random : Entropy} {tagged : Bytes}
    {first second : Share} :
    splitInTwo threshold random tagged = .ok (first, second) ↔
      threshold.split random tagged shareCount shareThreshold = .ok [first, second] := by
  rw [splitInTwo]
  split
  · rename_i hsplit
    rw [hsplit]
    constructor
    all_goals
      intro h
      cases h
  · rename_i hsplit
    rw [hsplit]
    simp
  · rename_i shares hother hsplit
    rw [hsplit]
    constructor
    · intro h
      cases h
    · intro h
      exact absurd (Except.ok.inj h) (hother first second)

theorem recipientKeyIds_ne_nil_of_sealSecret {envelope : Envelope} {entropy : EntropySource}
    {command : EncryptCommand} {lookup : KeyLookup} {secret : Secret}
    (h : envelope.sealSecret entropy command lookup = .ok secret) :
    command.recipientKeyIds ≠ [] := by
  obtain ⟨p, hplan, -⟩ := bind_eq_ok_iff.mp h
  exact (plan_eq_ok_iff.mp hplan).1

theorem encryptSecret_eq_ok_iff {envelope : Envelope} {entropy : EntropySource}
    {command : EncryptCommand} {lookup : KeyLookup} {text : String} :
    envelope.encryptSecret entropy command lookup = .ok text ↔
      ∃ secret, envelope.sealSecret entropy command lookup = .ok secret ∧
        secret.encode command.format = text := by
  rw [encryptSecret_eq_map_sealSecret, map_eq_ok_iff]

/-! ## The addresses -/

/-- **Addressing.** Whatever the lookup answers, and whatever the ids are, an envelope that comes
about is read back as a shard for the shared key and shards for the recipients in the order of their
first occurrences. No id comes twice. The first shard is an encryption of the first share, and the
others are encryptions of the second one, each for a key with the fingerprint that the shard is
addressed by. Ciphertexts are only expected not to be empty. -/
theorem encryptSecret_wellAddressed {envelope : Envelope} {entropy : EntropySource}
    {command : EncryptCommand} {lookup : KeyLookup} {text : String}
    (hciphertexts : ∀ random share key ciphertext,
      envelope.encryption.encrypt random share key = .ok ciphertext → ciphertext ≠ [])
    (h : envelope.encryptSecret entropy command lookup = .ok text) :
    ∃ (first second : Share) (shared : Shard) (others : List Shard),
      envelope.threshold.split (entropy 0) (addTag (Utf8.encodeString command.plaintext))
        shareCount shareThreshold = .ok [first, second] ∧
      Secret.decode text = .ok ⟨shared :: others⟩ ∧
      shared.keyId = command.sharedKeyId ∧
      others.map Shard.keyId = command.recipientKeyIds.eraseDups ∧
      others ≠ [] ∧ (∀ shard ∈ others, shard.keyId ≠ command.sharedKeyId) ∧
      (Secret.keyIds ⟨shared :: others⟩).Nodup ∧
      Encloses envelope.encryption lookup first shared ∧
      ∀ shard ∈ others, Encloses envelope.encryption lookup second shard := by
  obtain ⟨⟨shards⟩, hsealed, rfl⟩ := encryptSecret_eq_ok_iff.mp h
  obtain ⟨first, second, hsplit, hseals⟩ := seals_of_sealSecret hsealed
  have hids := hseals.keyIds
  rw [Secret.keyIds] at hids
  obtain ⟨shared, others, rfl, hshared, hothers⟩ := List.map_eq_cons_iff.mp hids
  have hnodup := hseals.nodup_keyIds
  -- The shared key's id is the first one, so it is none of the others.
  have hforeign : ∀ shard ∈ others, shard.keyId ≠ command.sharedKeyId := by
    intro shard hshard hid
    rw [Secret.keyIds, List.map_cons, List.nodup_cons, hshared, ← hid] at hnodup
    exact hnodup.1 (List.mem_map_of_mem hshard)
  have hvalues : ∀ shard ∈ shared :: others, shard.value ≠ "" := by
    intro shard hshard hempty
    obtain ⟨key, random, ciphertext, -, -, hencrypt, hvalue⟩ | ⟨key, random, ciphertext, -, -,
      hencrypt, hvalue⟩ := hseals.encloses hshard
    all_goals
      apply (isField_encodeValue (hciphertexts random _ key ciphertext hencrypt)).ne_nil
      rw [← hvalue, hempty]
      rfl
  have herase : others.map Shard.keyId = command.recipientKeyIds.eraseDups := by
    rw [hothers, firstOccurrences_eq_eraseDups]
    simp
  refine ⟨first, second, shared, others, splitInTwo_eq_ok_iff.mp hsplit,
    hseals.decode_encode hvalues command.format, hshared, herase, ?_, hforeign, hnodup,
    hseals.shared shared List.mem_cons_self hshared, ?_⟩
  · rintro rfl
    obtain ⟨id, ids, hcons⟩ :=
      List.exists_cons_of_ne_nil (recipientKeyIds_ne_nil_of_sealSecret hsealed)
    rw [hcons, List.eraseDups_cons] at herase
    cases herase
  · intro shard hshard
    exact hseals.recipients shard (List.mem_cons_of_mem _ hshard) (hforeign shard hshard)

open KeyPair in
/-- Two recipients, one of them named twice. -/
theorem encryptSecret_wellAddressed_labelled :
    ∃ text,
      encryptSecret ⟨.labelled, Shamir.scheme⟩ (fun _ i ↦ UInt8.ofNat (7 * i))
        ⟨"attack at dawn", one.id, [two.id, three.id, two.id], .pem⟩ (directory publicKeys)
          = .ok text ∧
      ∃ (first second : Share) (shared : Shard) (others : List Shard),
        Shamir.scheme.split (fun i ↦ UInt8.ofNat (7 * i))
          (addTag (Utf8.encodeString "attack at dawn")) shareCount shareThreshold
            = .ok [first, second] ∧
        Secret.decode text = .ok ⟨shared :: others⟩ ∧
        shared.keyId = one.id ∧
        others.map Shard.keyId = [two.id, three.id, two.id].eraseDups ∧
        others ≠ [] ∧ (∀ shard ∈ others, shard.keyId ≠ one.id) ∧
        (Secret.keyIds ⟨shared :: others⟩).Nodup ∧
        Encloses .labelled (directory publicKeys) first shared ∧
        ∀ shard ∈ others, Encloses .labelled (directory publicKeys) second shard := by
  have hone : directory publicKeys one.id = .ok (some one.publicKey) :=
    directory_publicKeys (.head _)
  have htwo : directory publicKeys two.id = .ok (some two.publicKey) :=
    directory_publicKeys (.tail _ (.head _))
  have hthree : directory publicKeys three.id = .ok (some three.publicKey) :=
    directory_publicKeys (.tail _ (.tail _ (.head _)))
  have hencrypts : ∃ text, encryptSecret ⟨.labelled, Shamir.scheme⟩ (fun _ i ↦ UInt8.ofNat (7 * i))
      ⟨"attack at dawn", one.id, [two.id, three.id, two.id], .pem⟩ (directory publicKeys)
        = .ok text := by
    refine exists_encryptSecret_eq_ok _ _ (by decide) (List.cons_ne_nil _ _) ?_ ?_
    · simp [one_id_ne_two_id, one_id_ne_three_id]
    · simp only [List.forall_mem_cons]
      have haccepts := ShareEncryption.labelled_accepts
      exact ⟨⟨_, hone, rfl, haccepts _⟩, ⟨_, htwo, rfl, haccepts _⟩, ⟨_, hthree, rfl, haccepts _⟩,
        ⟨_, htwo, rfl, haccepts _⟩, List.forall_mem_nil _⟩
  have hciphertexts : ∀ random share key ciphertext,
      ShareEncryption.labelled.encrypt random share key = .ok ciphertext → ciphertext ≠ [] := by
    intro random share key ciphertext hencrypt
    cases hencrypt
    exact List.append_ne_nil_of_left_ne_nil (List.cons_ne_nil _ _) _
  obtain ⟨text, htext⟩ := hencrypts
  exact ⟨text, htext, encryptSecret_wellAddressed hciphertexts htext⟩

end Envelope

end DualSeal

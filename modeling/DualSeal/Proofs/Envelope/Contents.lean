import DualSeal.Envelope.Plan
import DualSeal.Project.Basic
import DualSeal.Proofs.Keys.KeyId
import DualSeal.Proofs.Secret.Encryption
import DualSeal.Proofs.Secret.Wire
import DualSeal.Proofs.Threshold.Reconstruction
import Mathlib.Data.List.Nodup

/-!
# What an envelope contains

Encryption ends with a secret whose shards are addressed to the shared key and then to the first
occurrences of the recipients, each of them an encryption of one of two shares for a key with the
fingerprint that the shard is addressed by (`seals_of_sealSecret`). The addresses are therefore
hexadecimal and the values base64, so the secret shows the form it has (`Seals.formatOf_encode`),
and it is well formed and read back from both forms unless a ciphertext is empty
(`Seals.decode_encode`).

Whether encryption succeeds depends on the recipients, the keys and the encryption alone, not on
the random bytes (`exists_sealSecret_eq_ok`).
-/

namespace DualSeal

/-! ## Recipients -/

namespace Project

theorem mem_firstOccurrences {seen ids : List KeyId} {id : KeyId} :
    id ∈ firstOccurrences seen ids ↔ id ∈ ids ∧ id ∉ seen := by
  induction ids generalizing seen with
  | nil => simp [firstOccurrences]
  | cons head ids ih =>
    rw [firstOccurrences]
    by_cases hseen : head ∈ seen
    · rw [if_pos hseen, ih, List.mem_cons]
      constructor
      · exact fun h ↦ ⟨.inr h.1, h.2⟩
      · rintro ⟨rfl | h, hid⟩
        · exact absurd hseen hid
        · exact ⟨h, hid⟩
    · rw [if_neg hseen, List.mem_cons, ih, List.mem_cons, List.mem_cons]
      by_cases heq : id = head
      · simp [heq, hseen]
      · simp [heq]

theorem nodup_firstOccurrences (seen ids : List KeyId) : (firstOccurrences seen ids).Nodup := by
  induction ids generalizing seen with
  | nil => exact List.nodup_nil
  | cons head ids ih =>
    rw [firstOccurrences]
    split
    · exact ih seen
    · refine List.nodup_cons.mpr ⟨fun hmem ↦ ?_, ih _⟩
      exact (mem_firstOccurrences.mp hmem).2 List.mem_cons_self

theorem firstOccurrences_of_nodup {seen ids : List KeyId} (hnodup : ids.Nodup)
    (hfresh : ∀ id ∈ ids, id ∉ seen) : firstOccurrences seen ids = ids := by
  induction ids generalizing seen with
  | nil => rfl
  | cons head ids ih =>
    obtain ⟨hhead, htail⟩ := List.nodup_cons.mp hnodup
    rw [firstOccurrences, if_neg (hfresh head List.mem_cons_self), ih htail]
    intro id hid hmem
    rcases List.mem_cons.mp hmem with rfl | hmem
    · exact hhead hid
    · exact hfresh id (List.mem_cons_of_mem _ hid) hmem

theorem firstOccurrences_firstOccurrences (ids : List KeyId) :
    firstOccurrences [] (firstOccurrences [] ids) = firstOccurrences [] ids :=
  firstOccurrences_of_nodup (nodup_firstOccurrences [] ids) fun _ _ ↦ List.not_mem_nil

end Project

namespace Envelope

open Project

theorem distinctRecipients_eq_ok_iff {shared : KeyId} {taken ids distinct : List KeyId} :
    distinctRecipients shared taken ids = .ok distinct
      ↔ shared ∉ ids ∧ distinct = firstOccurrences taken ids := by
  induction ids generalizing taken distinct with
  | nil =>
    rw [distinctRecipients, firstOccurrences, Except.ok.injEq, eq_comm]
    exact ⟨fun h ↦ ⟨List.not_mem_nil, h⟩, fun h ↦ h.2⟩
  | cons id ids ih =>
    rw [distinctRecipients, firstOccurrences, List.mem_cons, not_or]
    by_cases hshared : id = shared
    · rw [if_pos hshared]
      exact ⟨nofun, fun h ↦ absurd hshared.symm h.1.1⟩
    rw [if_neg hshared]
    by_cases htaken : id ∈ taken
    · rw [if_pos htaken, if_pos htaken, ih]
      exact ⟨fun h ↦ ⟨⟨Ne.symm hshared, h.1⟩, h.2⟩, fun h ↦ ⟨h.1.2, h.2⟩⟩
    · rw [if_neg htaken, if_neg htaken, map_eq_ok_iff]
      constructor
      · rintro ⟨rest, hrest, rfl⟩
        exact ⟨⟨Ne.symm hshared, (ih.mp hrest).1⟩, congrArg _ (ih.mp hrest).2⟩
      · rintro ⟨⟨-, hids⟩, rfl⟩
        exact ⟨_, ih.mpr ⟨hids, rfl⟩, rfl⟩

theorem recipients_eq_ok_iff {shared : KeyId} {ids distinct : List KeyId} :
    recipients shared ids = .ok distinct
      ↔ ids ≠ [] ∧ shared ∉ ids ∧ distinct = firstOccurrences [] ids := by
  -- Leaving out repetitions leaves nothing out of a list that is not empty.
  have hnil : firstOccurrences [] ids = [] ↔ ids = [] := by
    cases ids with
    | nil => exact ⟨fun _ ↦ rfl, fun _ ↦ rfl⟩
    | cons id ids => simp [firstOccurrences]
  rw [recipients]
  by_cases hshared : shared ∈ ids
  · cases hdistinct : distinctRecipients shared [] ids with
    | error fault => exact ⟨nofun, fun h ↦ absurd hshared h.2.1⟩
    | ok list => exact absurd hshared (distinctRecipients_eq_ok_iff.mp hdistinct).1
  · rw [distinctRecipients_eq_ok_iff.mpr ⟨hshared, rfl⟩]
    cases hlist : firstOccurrences [] ids with
    | nil => exact ⟨nofun, fun h ↦ absurd (hnil.mp hlist) h.1⟩
    | cons id rest =>
      have hne : ids ≠ [] := fun h ↦ by simp [hnil.mpr h] at hlist
      dsimp only
      rw [Except.ok.injEq, eq_comm]
      exact ⟨fun h ↦ ⟨hne, hshared, h⟩, fun h ↦ h.2.2⟩

/-! ## The plan -/

theorem resolve_eq_ok_iff {lookup : KeyLookup} {id : KeyId} {addressee : Addressee} :
    resolve lookup id = .ok addressee
      ↔ addressee.keyId = id ∧ lookup id = .ok (some addressee.key) ∧ addressee.key.id = id := by
  obtain ⟨keyId, key⟩ := addressee
  rw [resolve]
  cases lookup id with
  | error error => exact ⟨nofun, nofun⟩
  | ok found =>
    cases found with
    | none => exact ⟨nofun, nofun⟩
    | some other =>
      dsimp only
      by_cases hid : other.id = id
      · rw [if_pos hid, Except.ok.injEq, Addressee.mk.injEq, Except.ok.injEq, Option.some.injEq]
        exact ⟨fun ⟨h, hk⟩ ↦ ⟨h.symm, hk, hk ▸ hid⟩, fun ⟨h, hk, _⟩ ↦ ⟨h.symm, hk⟩⟩
      · rw [if_neg hid]
        exact ⟨nofun, fun ⟨_, h, hkey⟩ ↦ absurd (Option.some.inj (Except.ok.inj h) ▸ hkey) hid⟩

theorem plan_eq_ok_iff {command : EncryptCommand} {lookup : KeyLookup} {p : Plan} :
    plan command lookup = .ok p
      ↔ command.recipientKeyIds ≠ [] ∧ command.sharedKeyId ∉ command.recipientKeyIds ∧
        resolve lookup command.sharedKeyId = .ok p.shared ∧
        List.Forall₂ (fun id addressee ↦ resolve lookup id = .ok addressee)
          (firstOccurrences [] command.recipientKeyIds) p.recipients ∧
        command.plaintext ≠ "" ∧ p.tagged = addTag (Utf8.encodeString command.plaintext) := by
  obtain ⟨shared, addressees, tagged⟩ := p
  constructor
  · intro h
    obtain ⟨ids, hids, h⟩ := bind_eq_ok_iff.mp h
    obtain ⟨shared', hshared, h⟩ := bind_eq_ok_iff.mp h
    obtain ⟨addressees', haddressees, hmade⟩ := bind_eq_ok_iff.mp h
    obtain ⟨hne, hfresh, rfl⟩ := recipients_eq_ok_iff.mp hids
    dsimp only at hmade
    split at hmade
    · cases hmade
    · rename_i hplaintext
      cases hmade
      exact ⟨hne, hfresh, hshared, mapM_eq_ok_iff.mp haddressees,
        fun hempty ↦ hplaintext (Utf8.encodeString_eq_nil_iff.mpr hempty), rfl⟩
  · rintro ⟨hne, hfresh, hshared, haddressees, hplaintext, rfl⟩
    refine bind_eq_ok_iff.mpr ⟨_, recipients_eq_ok_iff.mpr ⟨hne, hfresh, rfl⟩, ?_⟩
    refine bind_eq_ok_iff.mpr ⟨_, hshared, ?_⟩
    refine bind_eq_ok_iff.mpr ⟨_, mapM_eq_ok_iff.mpr haddressees, ?_⟩
    dsimp only
    rw [if_neg fun hnil ↦ hplaintext (Utf8.encodeString_eq_nil_iff.mp hnil)]
    rfl

/-! ## Shares -/

theorem addTag_ne_nil (plaintext : Bytes) : addTag plaintext ≠ [] := by
  intro h
  have hlength := congrArg List.length h
  simp [addTag, tag, tagLength] at hlength

/-- The two shares of a tagged plaintext: the values of the polynomials at one and at two. -/
def halves (random : Entropy) (tagged : Bytes) : Share × Share :=
  (Shamir.shareAt (Shamir.polynomials 1 random 0 tagged) 1,
    Shamir.shareAt (Shamir.polynomials 1 random 0 tagged) 2)

theorem splitInTwo_scheme (random : Entropy) {tagged : Bytes} (h : tagged ≠ []) :
    splitInTwo Shamir.scheme random tagged = .ok (halves random tagged) := by
  have hsplit : Shamir.scheme.split random tagged shareCount shareThreshold
      = .ok [(halves random tagged).1, (halves random tagged).2] :=
    Shamir.split_eq_ok random h (by decide) (by decide) (by decide)
  rw [splitInTwo, hsplit]

theorem halves_ne_nil (random : Entropy) (tagged : Bytes) :
    (halves random tagged).1.bytes ≠ [] ∧ (halves random tagged).2.bytes ≠ [] := by
  constructor
  all_goals
    rw [halves, Shamir.shareAt]
    exact List.append_ne_nil_of_right_ne_nil _ (List.cons_ne_nil _ _)

theorem combine_halves (random : Entropy) {tagged : Bytes} (h : tagged ≠ []) :
    Shamir.scheme.combine [(halves random tagged).1, (halves random tagged).2] = .ok tagged := by
  have hcombine : Shamir.combine
      ([1, 2].map (Shamir.shareAt (Shamir.polynomials 1 random 0 tagged))) = .ok tagged :=
    Shamir.combine_map_shareAt h le_rfl (by decide) (by decide) le_rfl
  exact hcombine

/-! ## Shards -/

/-- A shard that encrypts a share for a key with the fingerprint it is addressed by. -/
def Encloses (encryption : ShareEncryption) (lookup : KeyLookup) (share : Share) (shard : Shard) :
    Prop :=
  ∃ key random ciphertext, lookup shard.keyId = .ok (some key) ∧ key.id = shard.keyId ∧
    encryption.encrypt random share key = .ok ciphertext ∧
    shard.value = Shard.encodeValue ciphertext

theorem shardFor_eq_ok_iff {encryption : ShareEncryption} {random : Entropy} {share : Share}
    {addressee : Addressee} {shard : Shard} :
    shardFor encryption random share addressee = .ok shard
      ↔ ∃ ciphertext, encryption.encrypt random share addressee.key = .ok ciphertext ∧
        shard = ⟨addressee.keyId, Shard.encodeValue ciphertext⟩ := by
  rw [shardFor]
  cases encryption.encrypt random share addressee.key with
  | error error => exact ⟨nofun, nofun⟩
  | ok ciphertext =>
    dsimp only
    constructor
    · intro h
      exact ⟨ciphertext, rfl, (Except.ok.inj h).symm⟩
    · rintro ⟨other, hother, rfl⟩
      cases hother
      rfl

theorem encloses_of_shardFor {encryption : ShareEncryption} {lookup : KeyLookup} {random : Entropy}
    {share : Share} {id : KeyId} {addressee : Addressee} {shard : Shard}
    (hresolve : resolve lookup id = .ok addressee)
    (hshard : shardFor encryption random share addressee = .ok shard) :
    shard.keyId = id ∧ Encloses encryption lookup share shard := by
  obtain ⟨rfl, hlookup, hid⟩ := resolve_eq_ok_iff.mp hresolve
  obtain ⟨ciphertext, hencrypt, rfl⟩ := shardFor_eq_ok_iff.mp hshard
  exact ⟨rfl, addressee.key, random, ciphertext, hlookup, hid, hencrypt, rfl⟩

theorem encloses_of_shardsFor {encryption : ShareEncryption} {lookup : KeyLookup}
    {entropy : EntropySource} {share : Share} {index : Nat} {ids : List KeyId}
    {addressees : List Addressee} {shards : List Shard}
    (hresolve : List.Forall₂ (fun id addressee ↦ resolve lookup id = .ok addressee) ids addressees)
    (hshards : shardsFor encryption entropy share index addressees = .ok shards) :
    shards.map Shard.keyId = ids ∧ ∀ shard ∈ shards, Encloses encryption lookup share shard := by
  induction hresolve generalizing index shards with
  | nil =>
    cases hshards
    exact ⟨rfl, nofun⟩
  | cons hhead _ ih =>
    obtain ⟨shard, hshard, hmade⟩ := bind_eq_ok_iff.mp hshards
    obtain ⟨rest, hrest, hcons⟩ := bind_eq_ok_iff.mp hmade
    cases hcons
    obtain ⟨hkeyId, hencloses⟩ := encloses_of_shardFor hhead hshard
    obtain ⟨hkeyIds, hall⟩ := ih hrest
    refine ⟨by rw [List.map_cons, hkeyId, hkeyIds], fun other hother ↦ ?_⟩
    rcases List.mem_cons.mp hother with rfl | hother
    · exact hencloses
    · exact hall other hother

theorem exists_shardsFor_eq_ok {encryption : ShareEncryption} (entropy : EntropySource)
    {share : Share} (hshare : share.bytes ≠ []) (index : Nat) {addressees : List Addressee}
    (haccepts : ∀ addressee ∈ addressees, encryption.Accepts addressee.key) :
    ∃ shards, shardsFor encryption entropy share index addressees = .ok shards := by
  induction addressees generalizing index with
  | nil => exact ⟨[], rfl⟩
  | cons addressee rest ih =>
    obtain ⟨ciphertext, hencrypt⟩ :=
      haccepts addressee List.mem_cons_self (entropy index) share hshare
    obtain ⟨shards, hshards⟩ := ih (index + 1) fun other hother ↦
      haccepts other (List.mem_cons_of_mem _ hother)
    rw [shardsFor, shardFor_eq_ok_iff.mpr ⟨ciphertext, hencrypt, rfl⟩, ok_bind, hshards]
    exact ⟨_, rfl⟩

/-! ## Sealed secrets -/

/-- The secret that encryption makes, before it is written. -/
def sealSecret (envelope : Envelope) (entropy : EntropySource) (command : EncryptCommand)
    (lookup : KeyLookup) : Except EnvelopeError Secret := do
  let plan ← plan command lookup
  envelope.fulfil entropy plan

theorem encryptSecret_eq_map_sealSecret (envelope : Envelope) (entropy : EntropySource)
    (command : EncryptCommand) (lookup : KeyLookup) :
    envelope.encryptSecret entropy command lookup
      = (fun secret ↦ secret.encode command.format)
          <$> envelope.sealSecret entropy command lookup := by
  rw [encryptSecret, sealSecret]
  cases plan command lookup with
  | error error => rfl
  | ok p =>
    rw [ok_bind, ok_bind]
    cases envelope.fulfil entropy p <;> rfl

/-- A secret with a shard for the shared key that encloses the first of two shares, and shards for
the first occurrences of the recipients that enclose the second. -/
structure Seals (encryption : ShareEncryption) (command : EncryptCommand) (lookup : KeyLookup)
    (first second : Share) (secret : Secret) : Prop where
  plaintext_ne : command.plaintext ≠ ""
  fresh : command.sharedKeyId ∉ command.recipientKeyIds
  keyIds : secret.keyIds = command.sharedKeyId :: firstOccurrences [] command.recipientKeyIds
  shared : ∀ shard ∈ secret.shards, shard.keyId = command.sharedKeyId →
    Encloses encryption lookup first shard
  recipients : ∀ shard ∈ secret.shards, shard.keyId ≠ command.sharedKeyId →
    Encloses encryption lookup second shard

/-- **What is sealed.** The shares of the tagged plaintext, however it is cut, for the shared key
and the recipients. -/
theorem seals_of_sealSecret {envelope : Envelope} {entropy : EntropySource}
    {command : EncryptCommand} {lookup : KeyLookup} {secret : Secret}
    (h : envelope.sealSecret entropy command lookup = .ok secret) :
    ∃ first second,
      splitInTwo envelope.threshold (entropy 0) (addTag (Utf8.encodeString command.plaintext))
        = .ok (first, second) ∧
      Seals envelope.encryption command lookup first second secret := by
  obtain ⟨p, hplan, h⟩ := bind_eq_ok_iff.mp h
  obtain ⟨-, hfresh, hshared, hrecipients, hplaintext, htagged⟩ := plan_eq_ok_iff.mp hplan
  obtain ⟨⟨first, second⟩, hsplit, h⟩ := bind_eq_ok_iff.mp h
  obtain ⟨shard, hshard, h⟩ := bind_eq_ok_iff.mp h
  obtain ⟨shards, hshards, h⟩ := bind_eq_ok_iff.mp h
  cases h
  obtain ⟨hkeyId, hencloses⟩ := encloses_of_shardFor hshared hshard
  obtain ⟨hkeyIds, hall⟩ := encloses_of_shardsFor hrecipients hshards
  refine ⟨first, second, htagged ▸ hsplit, ⟨hplaintext, hfresh, ?_, ?_, ?_⟩⟩
  · rw [Secret.keyIds, List.map_cons, hkeyId, hkeyIds]
  · intro other hother hid
    rcases List.mem_cons.mp hother with rfl | hother
    · exact hencloses
    · -- No recipient's shard is addressed to the shared key.
      refine absurd ?_ hfresh
      have hmem : other.keyId ∈ shards.map Shard.keyId := List.mem_map_of_mem hother
      rw [hkeyIds, hid] at hmem
      exact (mem_firstOccurrences.mp hmem).1
  · intro other hother hid
    rcases List.mem_cons.mp hother with rfl | hother
    · exact absurd hkeyId hid
    · exact hall other hother

/-- A secret with a shard for the shared key that encloses the first of two shares, and shards for
the first occurrences of the recipients that enclose the second; the shares come to the tagged
plaintext. -/
structure Contains (encryption : ShareEncryption) (command : EncryptCommand) (lookup : KeyLookup)
    (first second : Share) (secret : Secret) : Prop where
  plaintext_ne : command.plaintext ≠ ""
  first_ne_nil : first.bytes ≠ []
  second_ne_nil : second.bytes ≠ []
  combine : Shamir.scheme.combine [first, second]
    = .ok (addTag (Utf8.encodeString command.plaintext))
  fresh : command.sharedKeyId ∉ command.recipientKeyIds
  keyIds : secret.keyIds = command.sharedKeyId :: firstOccurrences [] command.recipientKeyIds
  shared : ∀ shard ∈ secret.shards, shard.keyId = command.sharedKeyId →
    Encloses encryption lookup first shard
  recipients : ∀ shard ∈ secret.shards, shard.keyId ≠ command.sharedKeyId →
    Encloses encryption lookup second shard

/-- Two shares that Shamir's scheme makes come to the tagged plaintext. -/
theorem contains_of_sealSecret {encryption : ShareEncryption} {entropy : EntropySource}
    {command : EncryptCommand} {lookup : KeyLookup} {secret : Secret}
    (h : sealSecret ⟨encryption, Shamir.scheme⟩ entropy command lookup = .ok secret) :
    ∃ first second,
      splitInTwo Shamir.scheme (entropy 0) (addTag (Utf8.encodeString command.plaintext))
        = .ok (first, second) ∧
      Contains encryption command lookup first second secret := by
  obtain ⟨first, second, hsplit, hseals⟩ := seals_of_sealSecret h
  have hne := addTag_ne_nil (Utf8.encodeString command.plaintext)
  have hhalves := hsplit
  rw [splitInTwo_scheme _ hne] at hhalves
  obtain ⟨rfl, rfl⟩ := Prod.mk.inj (Except.ok.inj hhalves)
  exact ⟨_, _, hsplit, ⟨hseals.plaintext_ne, (halves_ne_nil _ _).1, (halves_ne_nil _ _).2,
    combine_halves _ hne, hseals.fresh, hseals.keyIds, hseals.shared, hseals.recipients⟩⟩

theorem exists_resolve_eq_ok_of_found {lookup : KeyLookup} {id : KeyId}
    (h : ∃ key, lookup id = .ok (some key) ∧ key.id = id) :
    ∃ addressee, resolve lookup id = .ok addressee := by
  obtain ⟨key, hlookup, hid⟩ := h
  exact ⟨⟨id, key⟩, resolve_eq_ok_iff.mpr ⟨rfl, hlookup, hid⟩⟩

theorem exists_resolve_eq_ok {lookup : KeyLookup} {P : PublicKey → Prop} (ids : List KeyId)
    (h : ∀ id ∈ ids, ∃ key, lookup id = .ok (some key) ∧ key.id = id ∧ P key) :
    ∃ addressees,
      List.Forall₂ (fun id addressee ↦ resolve lookup id = .ok addressee) ids addressees ∧
      ∀ addressee ∈ addressees, P addressee.key := by
  induction ids with
  | nil => exact ⟨[], .nil, List.forall_mem_nil _⟩
  | cons id ids ih =>
    obtain ⟨key, hlookup, hid, hkey⟩ := h id List.mem_cons_self
    obtain ⟨rest, hrest, hall⟩ :=
      ih fun other hother ↦ h other (List.mem_cons_of_mem _ hother)
    refine ⟨⟨id, key⟩ :: rest, .cons (resolve_eq_ok_iff.mpr ⟨rfl, hlookup, hid⟩) hrest, ?_⟩
    exact List.forall_mem_cons.mpr ⟨hkey, hall⟩

/-- **Sealing succeeds** when there are recipients, the shared key is not among them, and all have
keys that can be encrypted for. -/
theorem exists_sealSecret_eq_ok {encryption : ShareEncryption} (entropy : EntropySource)
    (command : EncryptCommand) {lookup : KeyLookup} (hplaintext : command.plaintext ≠ "")
    (hne : command.recipientKeyIds ≠ []) (hfresh : command.sharedKeyId ∉ command.recipientKeyIds)
    (hkeys : ∀ id ∈ command.sharedKeyId :: command.recipientKeyIds,
      ∃ key, lookup id = .ok (some key) ∧ key.id = id ∧ encryption.Accepts key) :
    ∃ secret, sealSecret ⟨encryption, Shamir.scheme⟩ entropy command lookup = .ok secret := by
  obtain ⟨hshared, hrecipients⟩ := List.forall_mem_cons.mp hkeys
  obtain ⟨key, hlookup, hid, haccepts⟩ := hshared
  obtain ⟨addressees, haddressees, hall⟩ :=
    exists_resolve_eq_ok (firstOccurrences [] command.recipientKeyIds) fun id hmem ↦
      hrecipients id (mem_firstOccurrences.mp hmem).1
  set tagged := addTag (Utf8.encodeString command.plaintext)
  have hplan : plan command lookup = .ok ⟨⟨command.sharedKeyId, key⟩, addressees, tagged⟩ :=
    plan_eq_ok_iff.mpr ⟨hne, hfresh, resolve_eq_ok_iff.mpr ⟨rfl, hlookup, hid⟩, haddressees,
      hplaintext, rfl⟩
  have hsplit := splitInTwo_scheme (entropy 0) (addTag_ne_nil (Utf8.encodeString command.plaintext))
  obtain ⟨hfirst, hsecond⟩ := halves_ne_nil (entropy 0) tagged
  obtain ⟨ciphertext, hencrypt⟩ := haccepts (entropy 1) _ hfirst
  obtain ⟨shards, hshards⟩ := exists_shardsFor_eq_ok entropy hsecond 2 hall
  refine ⟨⟨⟨command.sharedKeyId, Shard.encodeValue ciphertext⟩ :: shards⟩, ?_⟩
  rw [sealSecret, hplan, ok_bind, fulfil, hsplit, ok_bind]
  dsimp only
  rw [shardFor_eq_ok_iff.mpr ⟨ciphertext, hencrypt, rfl⟩, ok_bind, hshards]
  rfl

theorem exists_encryptSecret_eq_ok {encryption : ShareEncryption} (entropy : EntropySource)
    (command : EncryptCommand) {lookup : KeyLookup} (hplaintext : command.plaintext ≠ "")
    (hne : command.recipientKeyIds ≠ []) (hfresh : command.sharedKeyId ∉ command.recipientKeyIds)
    (hkeys : ∀ id ∈ command.sharedKeyId :: command.recipientKeyIds,
      ∃ key, lookup id = .ok (some key) ∧ key.id = id ∧ encryption.Accepts key) :
    ∃ text, encryptSecret ⟨encryption, Shamir.scheme⟩ entropy command lookup = .ok text := by
  obtain ⟨secret, hsealed⟩ := exists_sealSecret_eq_ok entropy command hplaintext hne hfresh hkeys
  refine ⟨secret.encode command.format, ?_⟩
  rw [encryptSecret_eq_map_sealSecret, hsealed]
  rfl

/-! ## The shards of a sealed secret -/

private theorem digit_facts : ∀ n < 16, Hex.digit n ≠ '(' ∧ Hex.digit n ≠ ')' ∧ Hex.digit n ≠ '-' ∧
    Text.isBlank (Hex.digit n) = false := by
  decide +kernel

theorem isField_fingerprint (key : Bytes) : IsField (KeyId.fingerprint key).text := by
  have hdigit : ∀ c ∈ (KeyId.fingerprint key).text.toList, c ≠ '(' ∧ c ≠ ')' ∧ c ≠ '-' := by
    intro c hc
    obtain ⟨n, hn, rfl⟩ := KeyId.eq_digit_of_mem_fingerprint hc
    exact ⟨(digit_facts n hn).1, (digit_facts n hn).2.1, (digit_facts n hn).2.2.1⟩
  refine ⟨?_, fun h ↦ (hdigit _ h).1 rfl, fun h ↦ (hdigit _ h).2.1 rfl,
    fun h ↦ (hdigit _ h).2.2 rfl⟩
  intro hnil
  have hlength := KeyId.length_fingerprint key
  rw [hnil] at hlength
  cases hlength

theorem isBlank_fingerprint {key : Bytes} {c : Char} (h : c ∈ (KeyId.fingerprint key).text.toList) :
    Text.isBlank c = false := by
  obtain ⟨n, hn, rfl⟩ := KeyId.eq_digit_of_mem_fingerprint h
  exact (digit_facts n hn).2.2.2

namespace Seals

variable {encryption : ShareEncryption} {command : EncryptCommand} {lookup : KeyLookup}
  {first second : Share} {secret : Secret}

/-- A shard of the secret encloses one of the two shares. -/
theorem encloses (h : Seals encryption command lookup first second secret) {shard : Shard}
    (hshard : shard ∈ secret.shards) :
    Encloses encryption lookup first shard ∨ Encloses encryption lookup second shard := by
  by_cases hid : shard.keyId = command.sharedKeyId
  · exact .inl (h.shared shard hshard hid)
  · exact .inr (h.recipients shard hshard hid)

theorem exists_fingerprint (h : Seals encryption command lookup first second secret) {shard : Shard}
    (hshard : shard ∈ secret.shards) : ∃ key, shard.keyId = KeyId.fingerprint key := by
  obtain ⟨key, -, -, -, hid, -⟩ | ⟨key, -, -, -, hid, -⟩ := h.encloses hshard
  all_goals exact ⟨key.bytes, hid.symm⟩

theorem ne_nil (h : Seals encryption command lookup first second secret) : secret.shards ≠ [] := by
  intro hnil
  have hkeyIds := h.keyIds
  rw [Secret.keyIds, hnil] at hkeyIds
  cases hkeyIds

theorem nodup_keyIds (h : Seals encryption command lookup first second secret) :
    secret.keyIds.Nodup := by
  rw [h.keyIds]
  refine List.nodup_cons.mpr ⟨fun hmem ↦ h.fresh (mem_firstOccurrences.mp hmem).1, ?_⟩
  exact nodup_firstOccurrences [] _

theorem wellFormed (h : Seals encryption command lookup first second secret)
    (hvalues : ∀ shard ∈ secret.shards, shard.value ≠ "") : secret.WellFormed := by
  refine ⟨h.ne_nil, fun shard hshard ↦ ⟨?_, ?_⟩, h.nodup_keyIds⟩
  · obtain ⟨key, hkey⟩ := h.exists_fingerprint hshard
    rw [hkey]
    exact isField_fingerprint key
  · obtain ⟨-, -, ciphertext, -, -, -, hvalue⟩ | ⟨-, -, ciphertext, -, -, -, hvalue⟩ :=
      h.encloses hshard
    all_goals
      have hne := hvalues shard hshard
      rw [hvalue] at hne ⊢
      exact isField_encodeValue fun hnil ↦ hne (hnil ▸ rfl)

theorem startsVisible (h : Seals encryption command lookup first second secret) :
    secret.StartsVisible := by
  intro shard hshard c hc
  obtain ⟨key, hkey⟩ := h.exists_fingerprint (List.mem_of_mem_head? hshard)
  rw [hkey] at hc
  exact isBlank_fingerprint (List.mem_of_mem_head? hc)

/-- The form of a sealed secret shows, even if ciphertexts are empty. -/
theorem formatOf_encode (h : Seals encryption command lookup first second secret)
    (format : WireFormat) : Secret.formatOf (secret.encode format) = format := by
  cases format with
  | pem => exact Secret.formatOf_encodePem secret
  | simple =>
    obtain ⟨shard, shards, hshards⟩ := List.exists_cons_of_ne_nil h.ne_nil
    have hmem : shard ∈ secret.shards := hshards ▸ List.mem_cons_self
    obtain ⟨key, hkey⟩ := h.exists_fingerprint hmem
    rw [show secret = ⟨shard :: shards⟩ from congrArg Secret.mk hshards]
    exact Secret.formatOf_encodeSimple shards (hkey ▸ (isField_fingerprint key).noDash)

theorem decode_encode (h : Seals encryption command lookup first second secret)
    (hvalues : ∀ shard ∈ secret.shards, shard.value ≠ "") (format : WireFormat) :
    Secret.decode (secret.encode format) = .ok secret :=
  Secret.decode_encode (h.wellFormed hvalues) h.startsVisible format

end Seals

theorem exists_seals_of_encryptSecret {envelope : Envelope} {entropy : EntropySource}
    {command : EncryptCommand} {lookup : KeyLookup} {text : String}
    (h : envelope.encryptSecret entropy command lookup = .ok text) :
    ∃ first second secret, Seals envelope.encryption command lookup first second secret ∧
      text = secret.encode command.format := by
  rw [encryptSecret_eq_map_sealSecret] at h
  obtain ⟨secret, hsealed, rfl⟩ := map_eq_ok_iff.mp h
  obtain ⟨first, second, -, hseals⟩ := seals_of_sealSecret hsealed
  exact ⟨first, second, secret, hseals, rfl⟩

theorem Encloses.value_ne {encryption : ShareEncryption} {lookup : KeyLookup} {share : Share}
    {shard : Shard} (h : Encloses encryption lookup share shard) (hshare : share.bytes ≠ [])
    (htrips : ∀ key, lookup shard.keyId = .ok (some key) → encryption.RoundTrips key) :
    shard.value ≠ "" := by
  obtain ⟨key, random, ciphertext, hlookup, -, hencrypt, hvalue⟩ := h
  obtain ⟨hne, -⟩ := htrips key hlookup random share ciphertext hshare hencrypt
  intro hempty
  exact (isField_encodeValue hne).ne_nil (by rw [← hvalue, hempty]; rfl)

namespace Contains

variable {encryption : ShareEncryption} {command : EncryptCommand} {lookup : KeyLookup}
  {first second : Share} {secret : Secret}

theorem seals (h : Contains encryption command lookup first second secret) :
    Seals encryption command lookup first second secret :=
  ⟨h.plaintext_ne, h.fresh, h.keyIds, h.shared, h.recipients⟩

theorem mem_keyIds (h : Contains encryption command lookup first second secret) {id : KeyId} :
    id ∈ secret.keyIds ↔ id = command.sharedKeyId ∨ id ∈ command.recipientKeyIds := by
  rw [h.keyIds, List.mem_cons, mem_firstOccurrences]
  simp

theorem decode_encode (h : Contains encryption command lookup first second secret)
    (htrips : ∀ id ∈ command.sharedKeyId :: command.recipientKeyIds, ∀ key,
      lookup id = .ok (some key) → encryption.RoundTrips key) (format : WireFormat) :
    Secret.decode (secret.encode format) = .ok secret := by
  refine h.seals.decode_encode (fun shard hshard ↦ ?_) format
  have hmem : shard.keyId ∈ command.sharedKeyId :: command.recipientKeyIds :=
    List.mem_cons.mpr (h.mem_keyIds.mp (List.mem_map_of_mem hshard))
  rcases h.seals.encloses hshard with hencloses | hencloses
  · exact hencloses.value_ne h.first_ne_nil (htrips _ hmem)
  · exact hencloses.value_ne h.second_ne_nil (htrips _ hmem)

end Contains

end Envelope

end DualSeal

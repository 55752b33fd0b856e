import DualSeal.Proofs.Envelope.Addressing

/-!
# How encryption fails

The checks of an encryption come in a fixed order: the recipients, the keys, the plaintext, the
shards; and keys and shards are gone through in the order of the secret, so that the error names the
first id with something wrong. `EncryptionFails` says so without the program. Nothing in it looks at
a plaintext beyond its being empty, or at random bytes, as long as the encryption of a share fails
or succeeds for the key's sake alone (`ShareEncryption.IsByKey`); and the errors of an encryption
are these (`encryptSecret_outcome`).

It is enough to follow the program into each of the failures: they cover everything besides success,
and the program has one outcome.
-/

namespace DualSeal

/-! ## The first failure -/

/-- Among the items of a list this is the first that fails, and this is how. -/
inductive FirstToFail {α ε : Type} (fails : α → ε → Prop) : List α → α → ε → Prop where
  | here {item : α} {items : List α} {error : ε} (h : fails item error) :
    FirstToFail fails (item :: items) item error
  | later {head item : α} {items : List α} {error : ε} (hhead : ∀ other, ¬ fails head other)
    (h : FirstToFail fails items item error) : FirstToFail fails (head :: items) item error

theorem exists_firstToFail_or_forall {α ε : Type} (fails : α → ε → Prop) (items : List α) :
    (∃ item error, FirstToFail fails items item error) ∨
      ∀ item ∈ items, ∀ error, ¬ fails item error := by
  induction items with
  | nil => exact .inr (List.forall_mem_nil _)
  | cons head items ih =>
    by_cases hhead : ∃ error, fails head error
    · obtain ⟨error, h⟩ := hhead
      exact .inl ⟨head, error, .here h⟩
    · rcases ih with ⟨item, error, h⟩ | h
      · exact .inl ⟨item, error, .later (not_exists.mp hhead) h⟩
      · exact .inr (List.forall_mem_cons.mpr ⟨not_exists.mp hhead, h⟩)

/-- Doing something for every item of a list ends at the first that fails. -/
theorem mapM_eq_error_of_firstToFail {α β ε ε' : Type} {f : α → Except ε β} {fails : α → ε' → Prop}
    {describe : α → ε' → ε} (hfails : ∀ item error, fails item error →
      f item = .error (describe item error))
    (hok : ∀ item, (∀ error, ¬ fails item error) → ∃ b, f item = .ok b) {items : List α} {item : α}
    {error : ε'} (h : FirstToFail fails items item error) :
    items.mapM f = .error (describe item error) := by
  induction h with
  | here h => rw [List.mapM_cons, hfails _ _ h, error_bind]
  | later hhead _ ih =>
    obtain ⟨b, hb⟩ := hok _ hhead
    rw [List.mapM_cons, hb, ok_bind, ih, error_bind]

/-! ## Refusing keys -/

namespace ShareEncryption

/-- No share can be encrypted for the key, always for this reason. -/
def Refuses (encryption : ShareEncryption) (key : PublicKey) (error : ShareEncryptionError) :
    Prop :=
  ∀ (random : Entropy) (share : Share), share.bytes ≠ [] →
    encryption.encrypt random share key = .error error

/-- Whether a share can be encrypted, and why not, is a matter of the key alone. -/
def IsByKey (encryption : ShareEncryption) : Prop :=
  ∀ key, encryption.Accepts key ∨ ∃ error, encryption.Refuses key error

/-- Labels for encryption, but only for some keys. -/
def labelledFor (keys : List PublicKey) : ShareEncryption where
  encrypt random share key :=
    if key ∈ keys then labelled.encrypt random share key else .error (.crypto "no label")
  decrypt := labelled.decrypt

theorem labelledFor_accepts {keys : List PublicKey} {key : PublicKey} (h : key ∈ keys) :
    (labelledFor keys).Accepts key := fun _ _ _ ↦ ⟨_, if_pos h⟩

theorem labelledFor_refuses {keys : List PublicKey} {key : PublicKey} (h : key ∉ keys) :
    (labelledFor keys).Refuses key (.crypto "no label") := fun _ _ _ ↦ if_neg h

theorem labelledFor_isByKey (keys : List PublicKey) : (labelledFor keys).IsByKey := by
  intro key
  by_cases h : key ∈ keys
  · exact .inl (labelledFor_accepts h)
  · exact .inr ⟨_, labelledFor_refuses h⟩

end ShareEncryption

namespace Envelope

open Project

/-! ## Failures -/

/-- Whom the shards of a command's secret are for, in their order. -/
def shardOrder (command : EncryptCommand) : List KeyId :=
  command.sharedKeyId :: command.recipientKeyIds.eraseDups

/-- There is at least one recipient, and the shared key is not among them. -/
def AddressesOthers (command : EncryptCommand) : Prop :=
  command.recipientKeyIds ≠ [] ∧ command.sharedKeyId ∉ command.recipientKeyIds

/-- What the lookup has to say against an id. -/
inductive KeyFault (lookup : KeyLookup) (id : KeyId) : ResolutionFault → Prop where
  | lookup {error : LookupError} (h : lookup id = .error error) : KeyFault lookup id (.lookup error)
  | notFound (h : lookup id = .ok none) : KeyFault lookup id .notFound
  | mismatch {key : PublicKey} (h : lookup id = .ok (some key)) (hid : key.id ≠ id) :
    KeyFault lookup id (.mismatch key.id)

/-- The id names a key, which passes what it is tested for. -/
def Names (lookup : KeyLookup) (P : PublicKey → Prop) (id : KeyId) : Prop :=
  ∃ key, lookup id = .ok (some key) ∧ key.id = id ∧ P key

/-- How an encryption fails: what is checked first is wrong first. -/
inductive EncryptionFails (encryption : ShareEncryption) (command : EncryptCommand)
    (lookup : KeyLookup) : EnvelopeError → Prop where
  | noRecipient (h : command.recipientKeyIds = []) :
    EncryptionFails encryption command lookup (.invalidRecipients .none)
  | sharedKey (h : command.sharedKeyId ∈ command.recipientKeyIds) :
    EncryptionFails encryption command lookup
      (.invalidRecipients (.sharedKey command.sharedKeyId))
  | key {id : KeyId} {fault : ResolutionFault} (hothers : AddressesOthers command)
    (h : FirstToFail (KeyFault lookup) (shardOrder command) id fault) :
    EncryptionFails encryption command lookup (.keyResolution id fault)
  | plaintext (hothers : AddressesOthers command)
    (hkeys : ∀ id ∈ shardOrder command, Names lookup (fun _ ↦ True) id)
    (h : command.plaintext = "") :
    EncryptionFails encryption command lookup (.encryption .emptyPlaintext)
  | shard {id : KeyId} {error : ShareEncryptionError} (hothers : AddressesOthers command)
    (hkeys : ∀ id ∈ shardOrder command, Names lookup (fun _ ↦ True) id)
    (hplaintext : command.plaintext ≠ "")
    (h : FirstToFail (fun id error ↦ Names lookup (encryption.Refuses · error) id)
      (shardOrder command) id error) :
    EncryptionFails encryption command lookup (.encryption (.shard id error))

/-! ## Recipients -/

theorem distinctRecipients_of_mem {shared : KeyId} {taken ids : List KeyId} (h : shared ∈ ids) :
    distinctRecipients shared taken ids = .error (.sharedKey shared) := by
  induction ids generalizing taken with
  | nil => cases h
  | cons id ids ih =>
    rw [distinctRecipients]
    by_cases hid : id = shared
    · rw [if_pos hid, hid]
    rw [if_neg hid, ih ((List.mem_cons.mp h).resolve_left (Ne.symm hid)),
      ih ((List.mem_cons.mp h).resolve_left (Ne.symm hid))]
    split <;> rfl

theorem recipients_of_mem {shared : KeyId} {ids : List KeyId} (h : shared ∈ ids) :
    recipients shared ids = .error (.invalidRecipients (.sharedKey shared)) := by
  rw [recipients, distinctRecipients_of_mem h]

theorem firstOccurrences_nil_eq_eraseDups (ids : List KeyId) :
    firstOccurrences [] ids = ids.eraseDups := by
  rw [firstOccurrences_eq_eraseDups]
  simp

theorem recipients_eraseDups (shared : KeyId) (ids : List KeyId) :
    recipients shared ids.eraseDups = recipients shared ids := by
  by_cases hmem : shared ∈ ids
  · rw [recipients_of_mem hmem, recipients_of_mem (List.mem_eraseDups.mpr hmem)]
  · have hids : firstOccurrences [] ids.eraseDups = firstOccurrences [] ids := by
      rw [← firstOccurrences_nil_eq_eraseDups, firstOccurrences_firstOccurrences]
    rw [recipients, recipients, distinctRecipients_eq_ok_iff.mpr ⟨hmem, rfl⟩,
      distinctRecipients_eq_ok_iff.mpr ⟨mt List.mem_eraseDups.mp hmem, hids.symm⟩]

theorem recipients_of_addressesOthers {command : EncryptCommand} (h : AddressesOthers command) :
    recipients command.sharedKeyId command.recipientKeyIds
      = .ok command.recipientKeyIds.eraseDups :=
  recipients_eq_ok_iff.mpr ⟨h.1, h.2, (firstOccurrences_nil_eq_eraseDups _).symm⟩

/-! ## Keys -/

theorem resolve_of_keyFault {lookup : KeyLookup} {id : KeyId} {fault : ResolutionFault}
    (h : KeyFault lookup id fault) : resolve lookup id = .error (.keyResolution id fault) := by
  cases h with
  | lookup h => rw [resolve, h]
  | notFound h => rw [resolve, h]
  | mismatch h hid =>
    rw [resolve, h]
    dsimp only
    rw [if_neg hid]

theorem names_of_not_keyFault {lookup : KeyLookup} {id : KeyId}
    (h : ∀ fault, ¬ KeyFault lookup id fault) : Names lookup (fun _ ↦ True) id := by
  cases hlookup : lookup id with
  | error error => exact absurd (.lookup hlookup) (h _)
  | ok found =>
    cases found with
    | none => exact absurd (.notFound hlookup) (h _)
    | some key =>
      by_cases hid : key.id = id
      · exact ⟨key, hlookup, hid, trivial⟩
      · exact absurd (.mismatch hlookup hid) (h _)

theorem exists_resolve_of_names {lookup : KeyLookup} {id : KeyId} {P : PublicKey → Prop}
    (h : Names lookup P id) : ∃ addressee, resolve lookup id = .ok addressee := by
  obtain ⟨key, hlookup, hid, -⟩ := h
  exact exists_resolve_eq_ok_of_found ⟨key, hlookup, hid⟩

theorem plan_of_keyFault {command : EncryptCommand} {lookup : KeyLookup} {id : KeyId}
    {fault : ResolutionFault} (hothers : AddressesOthers command)
    (h : FirstToFail (KeyFault lookup) (shardOrder command) id fault) :
    plan command lookup = .error (.keyResolution id fault) := by
  rw [plan, recipients_of_addressesOthers hothers, ok_bind]
  cases h with
  | here h => rw [resolve_of_keyFault h, error_bind]
  | later hshared h =>
    obtain ⟨shared, hresolve⟩ := exists_resolve_of_names (names_of_not_keyFault hshared)
    have haddressees : command.recipientKeyIds.eraseDups.mapM (resolve lookup)
        = .error (.keyResolution id fault) :=
      mapM_eq_error_of_firstToFail (fun _ _ hfault ↦ resolve_of_keyFault hfault)
        (fun _ hnone ↦ exists_resolve_of_names (names_of_not_keyFault hnone)) h
    rw [hresolve, ok_bind, haddressees, error_bind]

theorem exists_addressees {lookup : KeyLookup} {ids : List KeyId}
    (h : ∀ id ∈ ids, Names lookup (fun _ ↦ True) id) :
    ∃ addressees, ids.mapM (resolve lookup) = .ok addressees ∧
      List.Forall₂ (fun id addressee ↦ resolve lookup id = .ok addressee) ids addressees := by
  obtain ⟨addressees, haddressees, -⟩ := exists_resolve_eq_ok ids h
  exact ⟨addressees, mapM_eq_ok_iff.mpr haddressees, haddressees⟩

theorem plan_of_emptyPlaintext {command : EncryptCommand} {lookup : KeyLookup}
    (hothers : AddressesOthers command)
    (hkeys : ∀ id ∈ shardOrder command, Names lookup (fun _ ↦ True) id)
    (h : command.plaintext = "") :
    plan command lookup = .error (.encryption .emptyPlaintext) := by
  obtain ⟨hshared, hrecipients⟩ := List.forall_mem_cons.mp hkeys
  obtain ⟨shared, hresolve⟩ := exists_resolve_of_names hshared
  obtain ⟨addressees, haddressees, -⟩ := exists_addressees hrecipients
  rw [plan, recipients_of_addressesOthers hothers, ok_bind, hresolve, ok_bind, haddressees, ok_bind]
  dsimp only
  rw [if_pos (Utf8.encodeString_eq_nil_iff.mpr h)]

/-! ## Shards -/

section Shards

variable {encryption : ShareEncryption} {lookup : KeyLookup} {share : Share} {id : KeyId}
  {addressee : Addressee} {error : ShareEncryptionError}

theorem shardFor_of_refuses (hshare : share.bytes ≠ [])
    (hresolve : resolve lookup id = .ok addressee)
    (h : Names lookup (encryption.Refuses · error) id) (random : Entropy) :
    shardFor encryption random share addressee = .error (.encryption (.shard id error)) := by
  obtain ⟨key, hkey, -, hrefuses⟩ := h
  obtain ⟨rfl, hlookup, -⟩ := resolve_eq_ok_iff.mp hresolve
  obtain rfl : addressee.key = key :=
    Option.some.inj (Except.ok.inj (hlookup.symm.trans hkey))
  rw [shardFor, hrefuses random share hshare]

theorem exists_shardFor_of_not_refuses (hkey : encryption.IsByKey) (hshare : share.bytes ≠ [])
    (hresolve : resolve lookup id = .ok addressee)
    (h : ∀ error, ¬ Names lookup (encryption.Refuses · error) id) (random : Entropy) :
    ∃ shard, shardFor encryption random share addressee = .ok shard := by
  obtain ⟨-, hlookup, hid⟩ := resolve_eq_ok_iff.mp hresolve
  rcases hkey addressee.key with haccepts | ⟨error, hrefuses⟩
  · obtain ⟨ciphertext, hencrypt⟩ := haccepts random share hshare
    exact ⟨_, shardFor_eq_ok_iff.mpr ⟨ciphertext, hencrypt, rfl⟩⟩
  · exact absurd ⟨_, hlookup, hid, hrefuses⟩ (h error)

theorem shardsFor_of_refuses (hkey : encryption.IsByKey) (hshare : share.bytes ≠ [])
    (entropy : EntropySource) (index : Nat) {ids : List KeyId} {addressees : List Addressee}
    (hresolve : List.Forall₂ (fun id addressee ↦ resolve lookup id = .ok addressee) ids addressees)
    (h : FirstToFail (fun id error ↦ Names lookup (encryption.Refuses · error) id) ids id error) :
    shardsFor encryption entropy share index addressees
      = .error (.encryption (.shard id error)) := by
  induction hresolve generalizing index with
  | nil => cases h
  | cons hhead _ ih =>
    rw [shardsFor]
    cases h with
    | here h => rw [shardFor_of_refuses hshare hhead h, error_bind]
    | later hnone h =>
      obtain ⟨shard, hshard⟩ :=
        exists_shardFor_of_not_refuses hkey hshare hhead hnone (entropy index)
      rw [hshard, ok_bind, ih (index + 1) h, error_bind]

end Shards

/-! ## The outcome of an encryption -/

section Outcome

variable {encryption : ShareEncryption} {entropy : EntropySource} {command : EncryptCommand}
  {lookup : KeyLookup} {error : EnvelopeError}

theorem encryptSecret_of_plan {envelope : Envelope}
    (h : plan command lookup = .error error) :
    encryptSecret envelope entropy command lookup = .error error := by
  rw [encryptSecret, h, error_bind]

theorem encryptSecret_of_refuses {id : KeyId} {error : ShareEncryptionError}
    (hkey : encryption.IsByKey) (hothers : AddressesOthers command)
    (hkeys : ∀ id ∈ shardOrder command, Names lookup (fun _ ↦ True) id)
    (hplaintext : command.plaintext ≠ "")
    (h : FirstToFail (fun id error ↦ Names lookup (encryption.Refuses · error) id)
      (shardOrder command) id error) :
    encryptSecret ⟨encryption, Shamir.scheme⟩ entropy command lookup
      = .error (.encryption (.shard id error)) := by
  obtain ⟨hshared, hrecipients⟩ := List.forall_mem_cons.mp hkeys
  obtain ⟨shared, hresolve⟩ := exists_resolve_of_names hshared
  obtain ⟨addressees, -, haddressees⟩ := exists_addressees hrecipients
  set tagged := addTag (Utf8.encodeString command.plaintext)
  have hplan : plan command lookup = .ok ⟨shared, addressees, tagged⟩ :=
    plan_eq_ok_iff.mpr ⟨hothers.1, hothers.2, hresolve,
      (firstOccurrences_nil_eq_eraseDups _).symm ▸ haddressees, hplaintext, rfl⟩
  have hsplit := splitInTwo_scheme (entropy 0) (addTag_ne_nil (Utf8.encodeString command.plaintext))
  obtain ⟨hfirst, hsecond⟩ := halves_ne_nil (entropy 0) tagged
  rw [encryptSecret, hplan, ok_bind, fulfil, hsplit, ok_bind]
  dsimp only
  -- The shard for the shared key comes first, of the other share.
  cases h with
  | here h => rw [shardFor_of_refuses hfirst hresolve h, error_bind, error_bind]
  | later hnone h =>
    obtain ⟨shard, hshard⟩ :=
      exists_shardFor_of_not_refuses hkey hfirst hresolve hnone (entropy 1)
    rw [hshard, ok_bind, shardsFor_of_refuses hkey hsecond entropy 2 haddressees h, error_bind,
      error_bind]

theorem EncryptionFails.encryptSecret (hkey : encryption.IsByKey)
    (h : EncryptionFails encryption command lookup error) :
    encryptSecret ⟨encryption, Shamir.scheme⟩ entropy command lookup = .error error := by
  cases h with
  | noRecipient h =>
    refine encryptSecret_of_plan ?_
    rw [plan, h]
    rfl
  | sharedKey h =>
    refine encryptSecret_of_plan ?_
    rw [plan, recipients_of_mem h, error_bind]
  | key hothers h => exact encryptSecret_of_plan (plan_of_keyFault hothers h)
  | plaintext hothers hkeys h =>
    exact encryptSecret_of_plan (plan_of_emptyPlaintext hothers hkeys h)
  | shard hothers hkeys hplaintext h =>
    exact encryptSecret_of_refuses hkey hothers hkeys hplaintext h

/-- What it takes for an encryption not to fail. -/
structure EncryptionSucceeds (encryption : ShareEncryption) (command : EncryptCommand)
    (lookup : KeyLookup) : Prop where
  others : AddressesOthers command
  keys : ∀ id ∈ shardOrder command, Names lookup encryption.Accepts id
  plaintext : command.plaintext ≠ ""

theorem EncryptionSucceeds.encryptSecret (h : EncryptionSucceeds encryption command lookup)
    (entropy : EntropySource) :
    ∃ text, encryptSecret ⟨encryption, Shamir.scheme⟩ entropy command lookup = .ok text := by
  refine exists_encryptSecret_eq_ok entropy command h.plaintext h.others.1 h.others.2 ?_
  obtain ⟨hshared, hrecipients⟩ := List.forall_mem_cons.mp h.keys
  exact List.forall_mem_cons.mpr
    ⟨hshared, fun id hid ↦ hrecipients id (List.mem_eraseDups.mpr hid)⟩

theorem exists_encryptionFails_or_succeeds (hkey : encryption.IsByKey) (command : EncryptCommand)
    (lookup : KeyLookup) :
    (∃ error, EncryptionFails encryption command lookup error) ∨
      EncryptionSucceeds encryption command lookup := by
  by_cases hnone : command.recipientKeyIds = []
  · exact .inl ⟨_, .noRecipient hnone⟩
  by_cases hshared : command.sharedKeyId ∈ command.recipientKeyIds
  · exact .inl ⟨_, .sharedKey hshared⟩
  have hothers : AddressesOthers command := ⟨hnone, hshared⟩
  rcases exists_firstToFail_or_forall (KeyFault lookup) (shardOrder command) with
    ⟨id, fault, h⟩ | hfaults
  · exact .inl ⟨_, .key hothers h⟩
  have hkeys : ∀ id ∈ shardOrder command, Names lookup (fun _ ↦ True) id := fun id hid ↦
    names_of_not_keyFault (hfaults id hid)
  by_cases hplaintext : command.plaintext = ""
  · exact .inl ⟨_, .plaintext hothers hkeys hplaintext⟩
  rcases exists_firstToFail_or_forall
    (fun id error ↦ Names lookup (encryption.Refuses · error) id) (shardOrder command) with
    ⟨id, error, h⟩ | hrefuses
  · exact .inl ⟨_, .shard hothers hkeys hplaintext h⟩
  refine .inr ⟨hothers, fun id hid ↦ ?_, hplaintext⟩
  obtain ⟨key, hlookup, heq, -⟩ := hkeys id hid
  rcases hkey key with haccepts | ⟨error, h⟩
  · exact ⟨key, hlookup, heq, haccepts⟩
  · exact absurd ⟨key, hlookup, heq, h⟩ (hrefuses id hid error)

theorem encryptSecret_eq_error_iff (hkey : encryption.IsByKey) :
    encryptSecret ⟨encryption, Shamir.scheme⟩ entropy command lookup = .error error
      ↔ EncryptionFails encryption command lookup error := by
  refine ⟨fun h ↦ ?_, EncryptionFails.encryptSecret hkey⟩
  rcases exists_encryptionFails_or_succeeds hkey command lookup with ⟨other, hother⟩ | hsucceeds
  · cases h.symm.trans (hother.encryptSecret hkey)
    exact hother
  · obtain ⟨text, htext⟩ := hsucceeds.encryptSecret entropy
    cases h.symm.trans htext

theorem exists_encryptSecret_eq_ok_iff (hkey : encryption.IsByKey) :
    (∃ text, encryptSecret ⟨encryption, Shamir.scheme⟩ entropy command lookup = .ok text)
      ↔ EncryptionSucceeds encryption command lookup := by
  refine ⟨fun ⟨text, h⟩ ↦ ?_, fun h ↦ h.encryptSecret entropy⟩
  rcases exists_encryptionFails_or_succeeds hkey command lookup with ⟨error, herror⟩ | hsucceeds
  · cases h.symm.trans (herror.encryptSecret hkey)
  · exact hsucceeds

/-- An encryption fails for one plaintext as it does for another, unless one of them is empty. -/
theorem EncryptionFails.replace {plaintext other : String} (hplaintext : plaintext ≠ "")
    (hother : other ≠ "")
    (h : EncryptionFails encryption { command with plaintext } lookup error) :
    EncryptionFails encryption { command with plaintext := other } lookup error := by
  cases h with
  | noRecipient h => exact .noRecipient h
  | sharedKey h => exact .sharedKey h
  | key hothers h => exact .key hothers h
  | plaintext _ _ h => exact absurd h hplaintext
  | shard hothers hkeys _ h => exact .shard hothers hkeys hother h

/-- Repetitions among the recipients make no difference to any envelope. -/
theorem encryptSecret_eraseDups (envelope : Envelope) (entropy : EntropySource)
    (command : EncryptCommand) (lookup : KeyLookup) :
    encryptSecret envelope entropy
        { command with recipientKeyIds := command.recipientKeyIds.eraseDups } lookup
      = encryptSecret envelope entropy command lookup := by
  rw [encryptSecret, encryptSecret, plan, plan]
  dsimp only
  rw [recipients_eraseDups]

end Outcome

/-- **How encryption ends.** When share encryption fails or succeeds for the key's sake, an
encryption fails exactly as the order of its checks says, and succeeds exactly when nothing is
wrong. So for any two plaintexts that are not empty, with any random bytes, it succeeds for both or
comes to the same error for both; and it comes to the same when repetitions among the recipients
are left out. -/
theorem encryptSecret_outcome {encryption : ShareEncryption} (hkey : encryption.IsByKey)
    (command : EncryptCommand) (lookup : KeyLookup) :
    (∀ entropy error,
      encryptSecret ⟨encryption, Shamir.scheme⟩ entropy command lookup = .error error
        ↔ EncryptionFails encryption command lookup error) ∧
    (∀ entropy,
      (∃ text, encryptSecret ⟨encryption, Shamir.scheme⟩ entropy command lookup = .ok text)
        ↔ EncryptionSucceeds encryption command lookup) ∧
    (∀ entropy entropy' plaintext other, plaintext ≠ "" → other ≠ "" →
      (∃ text text',
        encryptSecret ⟨encryption, Shamir.scheme⟩ entropy { command with plaintext } lookup
          = .ok text ∧
        encryptSecret ⟨encryption, Shamir.scheme⟩ entropy' { command with plaintext := other }
          lookup = .ok text') ∨
      ∃ error,
        encryptSecret ⟨encryption, Shamir.scheme⟩ entropy { command with plaintext } lookup
          = .error error ∧
        encryptSecret ⟨encryption, Shamir.scheme⟩ entropy' { command with plaintext := other }
          lookup = .error error) ∧
    ∀ entropy,
      encryptSecret ⟨encryption, Shamir.scheme⟩ entropy
          { command with recipientKeyIds := command.recipientKeyIds.eraseDups } lookup
        = encryptSecret ⟨encryption, Shamir.scheme⟩ entropy command lookup := by
  refine ⟨fun _ _ ↦ encryptSecret_eq_error_iff hkey, fun _ ↦ exists_encryptSecret_eq_ok_iff hkey,
    fun entropy entropy' plaintext other hplaintext hother ↦ ?_,
    fun _ ↦ encryptSecret_eraseDups _ _ _ _⟩
  rcases exists_encryptionFails_or_succeeds hkey { command with plaintext } lookup with
    ⟨error, h⟩ | h
  · exact .inr ⟨error, h.encryptSecret hkey, (h.replace hplaintext hother).encryptSecret hkey⟩
  · obtain ⟨text, htext⟩ := h.encryptSecret entropy
    have h' : EncryptionSucceeds encryption { command with plaintext := other } lookup :=
      ⟨h.others, h.keys, hother⟩
    obtain ⟨text', htext'⟩ := h'.encryptSecret entropy'
    exact .inl ⟨text, text', htext, htext'⟩

open KeyPair in
/-- Nobody but the first of the three has a label, and the second comes before the third. -/
theorem encryptSecret_outcome_labelledFor :
    (ShareEncryption.labelledFor [one.publicKey]).IsByKey ∧
    encryptSecret ⟨.labelledFor [one.publicKey], Shamir.scheme⟩ (fun _ i ↦ UInt8.ofNat (7 * i))
        ⟨"attack at dawn", one.id, [two.id, three.id, two.id], .simple⟩ (directory publicKeys)
      = .error (.encryption (.shard two.id (.crypto "no label"))) := by
  have hkey := ShareEncryption.labelledFor_isByKey [one.publicKey]
  have hone : directory publicKeys one.id = .ok (some one.publicKey) :=
    directory_publicKeys (.head _)
  have htwo : directory publicKeys two.id = .ok (some two.publicKey) :=
    directory_publicKeys (.tail _ (.head _))
  have hthree : directory publicKeys three.id = .ok (some three.publicKey) :=
    directory_publicKeys (.tail _ (.tail _ (.head _)))
  refine ⟨hkey, ((encryptSecret_outcome hkey _ _).1 _ _).mpr
    (.shard ⟨List.cons_ne_nil _ _, ?_⟩ ?_ (by decide) (.later ?_ ?_))⟩
  · rw [List.mem_cons, List.mem_cons, List.mem_singleton]
    rintro (h | h | h)
    · exact one_id_ne_two_id h
    · exact one_id_ne_three_id h
    · exact one_id_ne_two_id h
  · refine List.forall_mem_cons.mpr ⟨⟨_, hone, rfl, trivial⟩, fun id hid ↦ ?_⟩
    have hmem : id ∈ [two.id, three.id, two.id] := List.mem_eraseDups.mp hid
    rw [List.mem_cons, List.mem_cons, List.mem_singleton] at hmem
    obtain rfl | rfl | rfl := hmem
    · exact ⟨_, htwo, rfl, trivial⟩
    · exact ⟨_, hthree, rfl, trivial⟩
    · exact ⟨_, htwo, rfl, trivial⟩
  · rintro error ⟨key, hlookup, -, hrefuses⟩
    obtain rfl : one.publicKey = key := Option.some.inj (Except.ok.inj (hone.symm.trans hlookup))
    obtain ⟨ciphertext, hencrypt⟩ := ShareEncryption.labelledFor_accepts (List.mem_singleton_self _)
      (fun _ ↦ 0) ⟨[0]⟩ (List.cons_ne_nil _ _)
    cases hencrypt.symm.trans (hrefuses (fun _ ↦ 0) ⟨[0]⟩ (List.cons_ne_nil _ _))
  · rw [List.eraseDups_cons]
    refine .here ⟨_, htwo, rfl, ShareEncryption.labelledFor_refuses ?_⟩
    decide +kernel

end Envelope

end DualSeal

import DualSeal.Proofs.Envelope.Contents

/-!
# What the stages of an encryption fail with

Each stage of an encryption fails in its own way: the recipients are refused, or a key is not found,
or a share is not encrypted. So an encryption is refused for its recipients by nothing but the first
stage (`encryptSecret_ne_invalidRecipients`), and it fails for want of a key only where the lookup
fails it: if every id that a command names has a key of that fingerprint, then whatever else goes
wrong, no key is missing (`resolves_encryptSecret`).
-/

namespace DualSeal

namespace Envelope

/-- Whatever the outcome fails with is of this kind. -/
def FailsOnly {α : Type} (kind : EnvelopeError → Prop) (outcome : Except EnvelopeError α) : Prop :=
  ∀ error, outcome = .error error → kind error

/-- An outcome that is no failure to find the key of an id. -/
def Resolves {α : Type} (outcome : Except EnvelopeError α) : Prop :=
  ∀ id fault, outcome ≠ .error (.keyResolution id fault)

section Chains

variable {α β : Type} {kind kind' : EnvelopeError → Prop}

theorem failsOnly_ok (a : α) : FailsOnly kind (.ok a) := fun _ ↦ nofun

theorem failsOnly_error {error : EnvelopeError} (h : kind error) :
    FailsOnly kind (.error error : Except EnvelopeError α) := fun _ heq ↦ Except.error.inj heq ▸ h

theorem FailsOnly.imp {x : Except EnvelopeError α} (h : FailsOnly kind x)
    (hkind : ∀ error, kind error → kind' error) : FailsOnly kind' x :=
  fun error heq ↦ hkind error (h error heq)

theorem FailsOnly.bind {x : Except EnvelopeError α} {f : α → Except EnvelopeError β}
    (hx : FailsOnly kind x) (hf : ∀ a, x = .ok a → FailsOnly kind (f a)) :
    FailsOnly kind (x >>= f) := by
  cases x with
  | error error => exact failsOnly_error (hx error rfl)
  | ok a => exact hf a rfl

theorem failsOnly_mapM {f : α → Except EnvelopeError β} {items : List α}
    (h : ∀ a ∈ items, FailsOnly kind (f a)) : FailsOnly kind (items.mapM f) := by
  induction items with
  | nil => exact failsOnly_ok []
  | cons a items ih =>
    obtain ⟨ha, hitems⟩ := List.forall_mem_cons.mp h
    rw [List.mapM_cons]
    exact ha.bind fun b _ ↦ (ih hitems).bind fun rest _ ↦ failsOnly_ok (b :: rest)

end Chains

/-! ## The stages -/

theorem failsOnly_recipients (shared : KeyId) (ids : List KeyId) :
    FailsOnly (∃ fault, · = .invalidRecipients fault) (recipients shared ids) := by
  rw [recipients]
  split
  · exact failsOnly_error ⟨_, rfl⟩
  · exact failsOnly_error ⟨_, rfl⟩
  · exact failsOnly_ok _

theorem failsOnly_resolve (lookup : KeyLookup) (id : KeyId) :
    FailsOnly (∃ fault, · = .keyResolution id fault) (resolve lookup id) := by
  rw [resolve]
  split
  · exact failsOnly_error ⟨_, rfl⟩
  · exact failsOnly_error ⟨_, rfl⟩
  · split
    · exact failsOnly_ok _
    · exact failsOnly_error ⟨_, rfl⟩

theorem failsOnly_splitInTwo (threshold : ThresholdScheme) (entropy : Entropy) (tagged : Bytes) :
    FailsOnly (∃ fault, · = .encryption fault) (splitInTwo threshold entropy tagged) := by
  rw [splitInTwo]
  split
  · exact failsOnly_error ⟨_, rfl⟩
  · exact failsOnly_ok _
  · exact failsOnly_error ⟨_, rfl⟩

theorem failsOnly_shardFor (encryption : ShareEncryption) (entropy : Entropy) (share : Share)
    (addressee : Addressee) :
    FailsOnly (∃ fault, · = .encryption fault) (shardFor encryption entropy share addressee) := by
  rw [shardFor]
  split
  · exact failsOnly_ok _
  · exact failsOnly_error ⟨_, rfl⟩

theorem failsOnly_shardsFor (encryption : ShareEncryption) (entropy : EntropySource) (share : Share)
    (index : Nat) (addressees : List Addressee) :
    FailsOnly (∃ fault, · = .encryption fault)
      (shardsFor encryption entropy share index addressees) := by
  induction addressees generalizing index with
  | nil => exact failsOnly_ok []
  | cons addressee rest ih =>
    exact (failsOnly_shardFor encryption _ share addressee).bind fun shard _ ↦
      (ih (index + 1)).bind fun shards _ ↦ failsOnly_ok (shard :: shards)

theorem failsOnly_fulfil (envelope : Envelope) (entropy : EntropySource) (p : Plan) :
    FailsOnly (∃ fault, · = .encryption fault) (envelope.fulfil entropy p) :=
  (failsOnly_splitInTwo _ _ _).bind fun halves _ ↦
    (failsOnly_shardFor _ _ halves.1 p.shared).bind fun shared _ ↦
      (failsOnly_shardsFor _ _ halves.2 2 p.recipients).bind fun shards _ ↦
        failsOnly_ok (Secret.mk (shared :: shards))

/-! ## The whole -/

variable {command : EncryptCommand} {lookup : KeyLookup} {kind : EnvelopeError → Prop}

/-- An encryption fails as its stages do: for the recipients, for the keys of the ids that it names,
or for encrypting. -/
theorem failsOnly_encryptSecret (envelope : Envelope) (entropy : EntropySource)
    (hrecipients : FailsOnly kind (recipients command.sharedKeyId command.recipientKeyIds))
    (hkeys : ∀ id ∈ command.sharedKeyId :: command.recipientKeyIds,
      FailsOnly kind (resolve lookup id))
    (hencryption : ∀ fault, kind (.encryption fault)) :
    FailsOnly kind (envelope.encryptSecret entropy command lookup) := by
  obtain ⟨hshared, hothers⟩ := List.forall_mem_cons.mp hkeys
  have hplan : FailsOnly kind (plan command lookup) := by
    refine hrecipients.bind fun ids hids ↦ hshared.bind fun shared _ ↦
      (failsOnly_mapM fun id hid ↦ ?_).bind fun addressees _ ↦ ?_
    · obtain ⟨-, -, rfl⟩ := recipients_eq_ok_iff.mp hids
      exact hothers id (Project.mem_firstOccurrences.mp hid).1
    · dsimp only
      split
      · exact failsOnly_error (hencryption _)
      · exact failsOnly_ok _
  have hfulfil : ∀ p, FailsOnly kind (envelope.fulfil entropy p) := fun p ↦
    (failsOnly_fulfil envelope entropy p).imp fun _ ⟨fault, hfault⟩ ↦ hfault ▸ hencryption fault
  exact hplan.bind fun p _ ↦ (hfulfil p).bind fun secret _ ↦
    failsOnly_ok (secret.encode command.format)

/-- **Recipients that are in order are never refused**, whatever else goes wrong. -/
theorem encryptSecret_ne_invalidRecipients (envelope : Envelope) (entropy : EntropySource)
    (hne : command.recipientKeyIds ≠ []) (hfresh : command.sharedKeyId ∉ command.recipientKeyIds)
    (fault : RecipientFault) :
    envelope.encryptSecret entropy command lookup ≠ .error (.invalidRecipients fault) := by
  have hrecipients := recipients_eq_ok_iff.mpr ⟨hne, hfresh, rfl⟩
  have hfails : FailsOnly (∀ fault, · ≠ .invalidRecipients fault)
      (envelope.encryptSecret entropy command lookup) := by
    refine failsOnly_encryptSecret envelope entropy ?_ (fun id _ ↦ ?_) fun _ _ ↦ nofun
    · rw [hrecipients]
      exact failsOnly_ok _
    · refine (failsOnly_resolve lookup id).imp ?_
      rintro _ ⟨_, rfl⟩ _
      exact nofun
  exact fun heq ↦ hfails _ heq fault rfl

/-- **No key is missing** where the lookup has one for every id. -/
theorem resolves_encryptSecret (envelope : Envelope) (entropy : EntropySource)
    (h : ∀ id ∈ command.sharedKeyId :: command.recipientKeyIds,
      ∃ key, lookup id = .ok (some key) ∧ key.id = id) :
    Resolves (envelope.encryptSecret entropy command lookup) := by
  have hfails : FailsOnly (∀ id fault, · ≠ .keyResolution id fault)
      (envelope.encryptSecret entropy command lookup) := by
    refine failsOnly_encryptSecret envelope entropy ?_ (fun id hid ↦ ?_) fun _ _ _ ↦ nofun
    · refine (failsOnly_recipients _ _).imp ?_
      rintro _ ⟨_, rfl⟩ _ _
      exact nofun
    · obtain ⟨addressee, haddressee⟩ := exists_resolve_eq_ok_of_found (h id hid)
      rw [haddressee]
      exact failsOnly_ok addressee
  exact fun id fault heq ↦ hfails _ heq id fault rfl

end Envelope

end DualSeal

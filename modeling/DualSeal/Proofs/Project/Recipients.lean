import DualSeal.Proofs.Envelope.Failures
import DualSeal.Proofs.Envelope.Resolution
import DualSeal.Proofs.Project.AllOrNothing

/-!
# Whom a project is left to after a rotation

A project can be written to when it names recipients and its shared key is not among them
(`IsAddressed`). That is checked where something is encrypted, so that a rotation checks its new
recipients once for each secret of the project: with at least one secret, a rotation to recipients
that are not in order is refused and leaves the project; without secrets nothing is checked, and
whatever lists are given are saved (`rotate_addresses`).
-/

namespace DualSeal

namespace Project

variable {project : Project}

/-- There is somebody to encrypt for, and it is not the shared key. -/
structure IsAddressed (project : Project) : Prop where
  recipients_ne_nil : project.recipientKeyIds ≠ []
  sharedKeyId_notMem : project.sharedKeyId ∉ project.recipientKeyIds

/-- A project's recipients are those of its lists, so either list will do, but neither may hold the
shared key. -/
theorem isAddressed_iff :
    project.IsAddressed
      ↔ project.memberKeyIds ++ project.serviceKeyIds ≠ [] ∧
        project.sharedKeyId ∉ project.memberKeyIds ++ project.serviceKeyIds := by
  have hnil : project.recipientKeyIds = []
      ↔ project.memberKeyIds ++ project.serviceKeyIds = [] := by
    rw [List.eq_nil_iff_forall_not_mem, List.eq_nil_iff_forall_not_mem]
    exact forall_congr' fun id ↦ not_congr mem_recipientKeyIds
  have hmem := @mem_recipientKeyIds project project.sharedKeyId
  exact ⟨fun h ↦ ⟨hnil.not.mp h.1, hmem.not.mp h.2⟩, fun h ↦ ⟨hnil.not.mpr h.1, hmem.not.mpr h.2⟩⟩

/-! ## Encrypting for a project -/

variable (envelope : Envelope)

theorem IsAddressed.encryptSecret_ne (h : project.IsAddressed) (entropy : EntropySource)
    (plaintext : String) (format : WireFormat) (lookup : KeyLookup) (fault : RecipientFault) :
    envelope.encryptSecret entropy
        ⟨plaintext, project.sharedKeyId, project.recipientKeyIds, format⟩ lookup
      ≠ .error (.invalidRecipients fault) :=
  Envelope.encryptSecret_ne_invalidRecipients envelope entropy h.recipients_ne_nil
    h.sharedKeyId_notMem fault

theorem exists_encryptSecret_eq_of_not_isAddressed (h : ¬ project.IsAddressed)
    (entropy : EntropySource) (plaintext : String) (format : WireFormat) (lookup : KeyLookup) :
    ∃ fault, envelope.encryptSecret entropy
        ⟨plaintext, project.sharedKeyId, project.recipientKeyIds, format⟩ lookup
      = .error (.invalidRecipients fault) := by
  by_cases hshared : project.sharedKeyId ∈ project.recipientKeyIds
  · refine ⟨.sharedKey project.sharedKeyId, Envelope.encryptSecret_of_plan ?_⟩
    rw [Envelope.plan, Envelope.recipients_of_mem hshared, error_bind]
  · have hnil : project.recipientKeyIds = [] := by_contra fun hne ↦ h ⟨hne, hshared⟩
    refine ⟨.none, Envelope.encryptSecret_of_plan ?_⟩
    rw [Envelope.plan, hnil]
    rfl

theorem IsAddressed.withSecret_ne (h : project.IsAddressed) (entropy : EntropySource)
    (name plaintext : String) (format : WireFormat) (lookup : KeyLookup) (fault : RecipientFault) :
    project.withSecret envelope entropy name plaintext format lookup
      ≠ .error (.envelope name (.invalidRecipients fault)) := by
  have hencrypt := h.encryptSecret_ne envelope entropy plaintext format lookup fault
  rw [withSecret, encryptFor]
  rcases hoc : envelope.encryptSecret entropy
    ⟨plaintext, project.sharedKeyId, project.recipientKeyIds, format⟩ lookup with error | text
  · rw [hoc] at hencrypt
    rw [Except.mapError, error_bind]
    exact fun heq ↦ hencrypt (congrArg _ (ProjectError.envelope.inj (Except.error.inj heq)).2)
  · rw [Except.mapError, ok_bind, withEncoded]
    split <;> intro heq <;> cases heq

end Project

namespace ProjectSecrets

variable {σ : Type} {secrets : ProjectSecrets (StateM σ)} {kept : σ → Project → Prop} {state : σ}
  {project : Project}

theorem run_set_ne_invalidRecipients (hkeeps : secrets.repository.Keeps kept)
    (hkept : kept state project) (haddressed : project.IsAddressed) (entropy : EntropySource)
    (name plaintext : String) (format : WireFormat) (lookup : KeyLookup) (fault : RecipientFault) :
    ((secrets.set entropy name plaintext format lookup).run.run state).1
      ≠ .error (.envelope name (.invalidRecipients fault)) := by
  have hchange := haddressed.withSecret_ne secrets.envelope entropy name plaintext format
    lookup fault
  rw [set]
  rcases hoc : project.withSecret secrets.envelope entropy name plaintext format lookup with
    error | changed
  · rw [hoc] at hchange
    rw [run_edit_of_error hkeeps hkept (congrArg (ExceptT.mk ∘ pure) hoc)]
    exact fun heq ↦ hchange (congrArg Except.error (Except.error.inj heq))
  · rcases hsave : (secrets.repository.save changed).run.run state with ⟨outcome, after⟩
    rw [run_edit_of_ok hkeeps hkept (congrArg (ExceptT.mk ∘ pure) hoc) hsave]
    rcases outcome with error | done <;> exact nofun

theorem exists_run_set_of_not_isAddressed (hkeeps : secrets.repository.Keeps kept)
    (hkept : kept state project) (haddressed : ¬ project.IsAddressed) (entropy : EntropySource)
    (name plaintext : String) (format : WireFormat) (lookup : KeyLookup) :
    ∃ fault, (secrets.set entropy name plaintext format lookup).run.run state
      = (.error (.envelope name (.invalidRecipients fault)), state) := by
  obtain ⟨fault, hencrypt⟩ := Project.exists_encryptSecret_eq_of_not_isAddressed
    secrets.envelope haddressed entropy plaintext format lookup
  have hchange : project.withSecret secrets.envelope entropy name plaintext format lookup
      = .error (.envelope name (.invalidRecipients fault)) := by
    rw [Project.withSecret, Project.encryptFor, hencrypt]
    rfl
  exact ⟨fault, run_edit_of_error hkeeps hkept (congrArg (ExceptT.mk ∘ pure) hchange)⟩

end ProjectSecrets

namespace Rotation

variable {σ : Type} {r : Rotation} {effect : MediatorRequest → σ → σ} {project rotated : Project}

/-- The recipients are in order for a project with this shared key: there are some, and the shared
key is not among them. -/
def Addresses (r : Rotation) (shared : KeyId) : Prop :=
  r.members ++ r.services ≠ [] ∧ shared ∉ r.members ++ r.services

theorem Rotates.isAddressed_iff {envelope : Envelope} (h : r.Rotates envelope project rotated) :
    rotated.IsAddressed ↔ r.Addresses project.sharedKeyId := by
  rw [Project.isAddressed_iff, h.members, h.services, h.sharedKeyId, Addresses]

theorem exists_encryptSecret_eq_of_not_addresses (envelope : Envelope)
    (h : ¬ r.Addresses project.sharedKeyId) (entropy : EntropySource) (encoded plaintext : String) :
    ∃ fault, envelope.encryptSecret entropy (r.encryption project encoded plaintext) r.lookup
      = .error (.invalidRecipients fault) := by
  have hreplaced : ¬ (project.replaceRecipients r.members r.services).IsAddressed := by
    rw [Project.isAddressed_iff]
    exact h
  exact Project.exists_encryptSecret_eq_of_not_isAddressed envelope hreplaced entropy plaintext
    (Secret.formatOf encoded) r.lookup

theorem Renewable.addresses {envelope : Envelope} {k : Nat} {name encoded : String}
    (h : r.Renewable envelope project k name encoded) : r.Addresses project.sharedKeyId := by
  obtain ⟨plaintext, text, -, hencrypt, -⟩ := h
  by_contra haddresses
  obtain ⟨fault, hrefused⟩ := exists_encryptSecret_eq_of_not_addresses envelope
    haddresses (r.entropy k) encoded plaintext
  cases hencrypt.symm.trans hrefused

/-- How a rotation is refused at the first entry, when the recipients are not in order: the entry
does not decrypt, or the recipients are what is wrong. -/
inductive Refuses (r : Rotation) (envelope : Envelope) (project : Project) (name encoded : String) :
    ProjectError → Prop
  | decryption {fault : EnvelopeError}
    (h : envelope.decryptWith (r.decryption project encoded) r.outcome = .error fault) :
    Refuses r envelope project name encoded (.envelope name fault)
  | recipients {plaintext : String}
    (h : envelope.decryptWith (r.decryption project encoded) r.outcome = .ok plaintext)
    (fault : RecipientFault) :
    Refuses r envelope project name encoded (.envelope name (.invalidRecipients fault))

theorem Fails.refuses {envelope : Envelope} {k : Nat} {name encoded : String} {error : ProjectError}
    (h : r.Fails envelope project k name encoded error)
    (haddresses : ¬ r.Addresses project.sharedKeyId) :
    r.Refuses envelope project name encoded error := by
  cases h with
  | decryption h => exact .decryption h
  | encryption hdecrypt h =>
    obtain ⟨fault, hrefused⟩ := exists_encryptSecret_eq_of_not_addresses envelope
      haddresses (r.entropy k) encoded _
    cases h.symm.trans hrefused
    exact .recipients hdecrypt fault
  | name hdecrypt hencrypt h =>
    obtain ⟨fault, hrefused⟩ := exists_encryptSecret_eq_of_not_addresses envelope
      haddresses (r.entropy k) encoded _
    cases hencrypt.symm.trans hrefused

theorem FailsFirst.refuses {envelope : Envelope} {i : Nat} {error : ProjectError}
    {name encoded : String} {rest : List (String × String)}
    (h : r.FailsFirst envelope project i error)
    (hentries : project.secrets.entries = (name, encoded) :: rest)
    (haddresses : ¬ r.Addresses project.sharedKeyId) :
    r.Refuses envelope project name encoded error := by
  obtain rfl : i = 0 := by
    by_contra hi
    have hrenewable := h.before 0 (Nat.pos_of_ne_zero hi) name encoded (by rw [hentries]; rfl)
    exact haddresses hrenewable.addresses
  obtain ⟨name', encoded', hentry, hfails⟩ := h.fails
  rw [hentries] at hentry
  cases hentry
  exact hfails.refuses haddresses

section Call

variable {secrets : ProjectSecrets (StateM σ)} {kept : σ → Project → Prop} {state final : σ}

theorem exists_kept_of_run_perform_eq_ok (hkeeps : secrets.repository.Keeps kept)
    (heffect : ∀ request state, kept state project → kept (effect request state) project)
    (hkept : kept state project)
    (hrun : (r.perform effect secrets).run.run state = (.ok (), final)) :
    ∃ rotated, kept final rotated ∧ r.AllRenewable secrets.envelope project ∧
      r.Rotates secrets.envelope project rotated := by
  obtain ⟨found, loaded, rotated, hload, hall, hrotates, hsave⟩ := run_perform_eq_ok_iff.mp hrun
  rw [hkeeps.load hkept] at hload
  cases hload
  refine ⟨rotated, ?_, hall, hrotates⟩
  have hafter := @kept_after σ r effect project state kept project heffect
    project.secrets.entries hkept
  rcases hkeeps.save hafter rotated with ⟨last, hsaved, hlast⟩ | ⟨fault, last, hsaved, -⟩
  · rw [hsaved] at hsave
    cases hsave
    exact hlast
  · rw [hsaved] at hsave
    cases hsave

/-- With a secret in the project, a rotation to recipients that are not in order is refused at the
first one, and the project stays. -/
theorem exists_run_perform_of_not_addresses (hkeeps : secrets.repository.Keeps kept)
    (heffect : ∀ request state, kept state project → kept (effect request state) project)
    (hkept : kept state project) {name encoded : String} {rest : List (String × String)}
    (hentries : project.secrets.entries = (name, encoded) :: rest)
    (haddresses : ¬ r.Addresses project.sharedKeyId) :
    ∃ error final, (r.perform effect secrets).run.run state = (.error error, final) ∧
      kept final project ∧ r.Refuses secrets.envelope project name encoded error := by
  have hall : ¬ r.AllRenewable secrets.envelope project := fun hall ↦
    haddresses (hall 0 name encoded (by rw [hentries]; rfl)).addresses
  obtain ⟨i, error, hfails, hrun⟩ := @run_perform_of_not_allRenewable σ r effect project secrets
    state state (hkeeps.load hkept) hall
  exact ⟨error, _, hrun, kept_after heffect _ hkept, hfails.refuses hentries haddresses⟩

/-- Without a secret, nothing is looked at: the lists are saved. -/
theorem run_perform_of_empty (hkeeps : secrets.repository.Keeps kept) (hkept : kept state project)
    (hentries : project.secrets.entries = []) {outcome : Except RepositoryError Unit}
    (hsave : (secrets.repository.save
      (project.replaceRecipients r.members r.services)).run.run state = (outcome, final)) :
    (r.perform effect secrets).run.run state = (outcome.mapError .repository, final) := by
  refine ProjectSecrets.run_edit_of_ok hkeeps hkept ?_ hsave
  rw [Project.rotated, hentries]
  rfl

end Call

/-! ## Whom a rotation leaves the project to -/

/-- **Rotations and recipients.** A project comes out of a rotation with recipients, and the shared
key not among them, exactly if it had a secret or the new lists are in order. If so, no value that
is set in it is refused for the recipients; if not, every one is.

New lists that are not in order are refused if the project has a secret, at the first of its names,
and the project stays. If it has none they are saved like any others. -/
theorem rotate_addresses {secrets : ProjectSecrets (StateM σ)} {kept : σ → Project → Prop}
    {state : σ} (hkeeps : secrets.repository.Keeps kept)
    (heffect : ∀ request state, kept state project → kept (effect request state) project)
    (hkept : kept state project) :
    (∀ final, (r.perform effect secrets).run.run state = (.ok (), final) → ∃ rotated,
      kept final rotated ∧ r.Rotates secrets.envelope project rotated ∧
      (rotated.IsAddressed
        ↔ project.secrets.entries ≠ [] ∨ r.Addresses project.sharedKeyId) ∧
      (rotated.IsAddressed → ∀ entropy name plaintext format lookup fault,
        ((secrets.set entropy name plaintext format lookup).run.run final).1
          ≠ .error (.envelope name (.invalidRecipients fault))) ∧
      (¬ rotated.IsAddressed → ∀ entropy name plaintext format lookup, ∃ fault,
        (secrets.set entropy name plaintext format lookup).run.run final
          = (.error (.envelope name (.invalidRecipients fault)), final))) ∧
    (∀ name encoded rest, project.secrets.entries = (name, encoded) :: rest →
      ¬ r.Addresses project.sharedKeyId →
      ∃ error final, (r.perform effect secrets).run.run state = (.error error, final) ∧
        kept final project ∧ r.Refuses secrets.envelope project name encoded error) ∧
    (project.secrets.entries = [] → ∀ outcome final,
      (secrets.repository.save (project.replaceRecipients r.members r.services)).run.run state
        = (outcome, final) →
      (r.perform effect secrets).run.run state = (outcome.mapError .repository, final)) := by
  refine ⟨fun final hrun ↦ ?_, fun name encoded rest hentries haddresses ↦
    exists_run_perform_of_not_addresses hkeeps heffect hkept hentries haddresses,
    fun hentries outcome final hsave ↦ run_perform_of_empty hkeeps hkept hentries hsave⟩
  obtain ⟨rotated, hfinal, hall, hrotates⟩ :=
    exists_kept_of_run_perform_eq_ok hkeeps heffect hkept hrun
  have haddressed : rotated.IsAddressed
      ↔ project.secrets.entries ≠ [] ∨ r.Addresses project.sharedKeyId := by
    rw [hrotates.isAddressed_iff]
    refine ⟨.inr, fun h ↦ h.elim (fun hentries ↦ ?_) id⟩
    obtain ⟨⟨name, encoded⟩, rest, hcons⟩ := List.exists_cons_of_ne_nil hentries
    exact (hall 0 name encoded (by rw [hcons]; rfl)).addresses
  refine ⟨rotated, hfinal, hrotates, haddressed, ?_, ?_⟩
  · intro h entropy name plaintext format lookup fault
    exact ProjectSecrets.run_set_ne_invalidRecipients hkeeps hfinal h entropy name plaintext format
      lookup fault
  · intro h entropy name plaintext format lookup
    exact ProjectSecrets.exists_run_set_of_not_isAddressed hkeeps hfinal h entropy name plaintext
      format lookup

open KeyPair in
/-- A secret is in the way of a rotation to the shared key. -/
theorem rotate_addresses_labelled :
    let secrets : ProjectSecrets (StateM (Option Project)) :=
      ⟨.inMemory, ⟨.labelled, Shamir.scheme⟩⟩
    let r : Rotation := ⟨fun _ _ i ↦ UInt8.ofNat (5 * i), [three.id], [one.id], some two,
      some (LocalMediator.outcome ⟨one, .labelled⟩), 500, Envelope.directory publicKeys⟩
    ∃ text fault,
      secrets.envelope.encryptSecret (fun _ i ↦ UInt8.ofNat (7 * i))
        ⟨"s3cret", one.id, [two.id], .simple⟩ (Envelope.directory publicKeys) = .ok text ∧
      let project : Project := ⟨one.id, [two.id], [], .ofList [("TOKEN", text)]⟩
      (r.perform (fun _ state ↦ state) secrets).run.run (some project)
        = (.error (.envelope "TOKEN" (.invalidRecipients fault)), some project) := by
  intro secrets r
  have hone : Envelope.directory publicKeys one.id = .ok (some one.publicKey) :=
    directory_publicKeys (.head _)
  have htwo : Envelope.directory publicKeys two.id = .ok (some two.publicKey) :=
    directory_publicKeys (.tail _ (.head _))
  obtain ⟨text, hencrypt⟩ := exists_encryptSecret_labelled (.head _) (.tail _ (.head _))
    one_id_ne_two_id (show "s3cret" ≠ "" by decide) (fun _ i ↦ UInt8.ofNat (7 * i)) .simple
  have hdecrypt : Envelope.decryptLocal secrets.envelope one text two 500 = .ok "s3cret" :=
    Envelope.decryptLocal_encryptSecret hencrypt
      (fun _ _ key _ ↦ ShareEncryption.labelled_roundTrips key) rfl (.head _)
      (Envelope.knowsPair_of_lookup hone) (Envelope.knowsPair_of_lookup htwo)
      (ShareEncryption.labelled_roundTrips _) (ShareEncryption.labelled_roundTrips _)
  have haddresses : ¬ r.Addresses one.id := fun h ↦ h.2 (.tail _ (.head _))
  obtain ⟨error, final, hrun, hkept, hrefuses⟩ :=
    (@rotate_addresses _ r (fun _ state ↦ state)
      ⟨one.id, [two.id], [], .ofList [("TOKEN", text)]⟩ secrets _ _
      ProjectRepository.inMemory_keeps (fun _ _ h ↦ h) rfl).2.1 "TOKEN" text [] rfl haddresses
  subst hkept
  cases hrefuses with
  | decryption h => cases hdecrypt.symm.trans h
  | recipients _ fault => exact ⟨text, fault, hencrypt, hrun⟩

/-- Without a secret, a project is rotated to nobody and to its shared key, and then nothing can be
set in it. -/
theorem rotate_addresses_nobody :
    let secrets : ProjectSecrets (StateM (Option Project)) :=
      ⟨.inMemory, ⟨.labelled, Shamir.scheme⟩⟩
    let rotation (members : List KeyId) : Rotation :=
      ⟨fun _ _ _ ↦ 0, members, [], none, none, 500, fun _ ↦ .ok none⟩
    let project := Project.create ⟨"shared"⟩ [⟨"alice"⟩] []
    ((rotation []).perform (fun _ state ↦ state) secrets).run.run (some project)
      = (.ok (), some (.create ⟨"shared"⟩ [] [])) ∧
    ((rotation [⟨"shared"⟩]).perform (fun _ state ↦ state) secrets).run.run (some project)
      = (.ok (), some (.create ⟨"shared"⟩ [⟨"shared"⟩] [])) ∧
    (secrets.set (fun _ _ ↦ 0) "TOKEN" "s3cret" .simple (fun _ ↦ .ok none)).run.run
        (some (.create ⟨"shared"⟩ [] []))
      = (.error (.envelope "TOKEN" (.invalidRecipients .none)), some (.create ⟨"shared"⟩ [] [])) ∧
    (secrets.set (fun _ _ ↦ 0) "TOKEN" "s3cret" .simple (fun _ ↦ .ok none)).run.run
        (some (.create ⟨"shared"⟩ [⟨"shared"⟩] []))
      = (.error (.envelope "TOKEN" (.invalidRecipients (.sharedKey ⟨"shared"⟩))),
        some (.create ⟨"shared"⟩ [⟨"shared"⟩] [])) :=
  ⟨rfl, rfl, rfl, rfl⟩

end Rotation

end DualSeal

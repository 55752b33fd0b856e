import DualSeal.Proofs.Envelope.Contact
import DualSeal.Proofs.Project.Repository

/-!
# What calls leave behind

Calls to the secrets of a project, one after the other, in any environment: loads and saves may fail
at any time, secrets may be malformed, and mediators and envelopes may do what they like, as long as
a mediator does not write to the repository. The project that is kept in the end is the one that the
changes that succeeded make of the first one (`performAll_replays`). What fails has no effect, what
reads has none, and what changes one secret changes nothing else (`Change.Effect`).
-/

namespace DualSeal

variable {σ : Type}

/-- Calls of the mediator leave every project that is kept. -/
def Mediator.LeavesAlone (mediator : Mediator (StateM σ)) (kept : σ → Project → Prop) : Prop :=
  ∀ project request, Leaves kept project (mediator request) fun _ ↦ True

/-! ## Effects -/

/-- Two projects agree, but for what is under a name: there the second has this, or nothing. -/
structure Project.SameBut (project : Project) (name : String) (text : Option String)
    (changed : Project) : Prop where
  sharedKeyId : changed.sharedKeyId = project.sharedKeyId
  members : changed.memberKeyIds = project.memberKeyIds
  services : changed.serviceKeyIds = project.serviceKeyIds
  text : changed.secrets.get? name = text
  others : ∀ other ≠ name, changed.secrets.get? other = project.secrets.get? other

/-- All secrets of a project are encrypted anew for the members and services. What is encrypted
under a name is what comes of decrypting there, with some outcome of the mediator's call. -/
structure Project.Reencrypts (project : Project) (envelope : Envelope)
    (entropy : Nat → EntropySource) (context : DecryptContext (StateM σ)) (lookup : KeyLookup)
    (members services : List KeyId) (changed : Project) : Prop where
  sharedKeyId : changed.sharedKeyId = project.sharedKeyId
  members : changed.memberKeyIds = members
  services : changed.serviceKeyIds = services
  names : changed.secrets.names = project.secrets.names
  texts : ∀ k name encoded, project.secrets.entries[k]? = some (name, encoded) →
    ∃ outcome plaintext text,
      project.decryptEntryWith envelope context.requester
          (context.mediator.map fun _ _ ↦ outcome) context.timeout name encoded
        = .ok plaintext ∧
      envelope.encryptSecret (entropy k)
          ⟨plaintext, changed.sharedKeyId, changed.recipientKeyIds, Secret.formatOf encoded⟩ lookup
        = .ok text ∧
      changed.secrets.get? name = some text

namespace Project

variable {project changed : Project} {envelope : Envelope} {context : DecryptContext (StateM σ)}
  {lookup : KeyLookup} {kept : σ → Project → Prop}

theorem SameBut.insert (name text : String) :
    project.SameBut name (some text)
      { project with secrets := project.secrets.insert name text } := by
  refine ⟨rfl, rfl, rfl, ?_, fun other hne ↦ ?_⟩
  · rw [NamedTexts.get?_insert, if_pos rfl]
  · rw [NamedTexts.get?_insert, if_neg hne]

theorem SameBut.erase (name : String) :
    project.SameBut name none { project with secrets := project.secrets.erase name } := by
  refine ⟨rfl, rfl, rfl, ?_, fun other hne ↦ ?_⟩
  · rw [NamedTexts.get?_erase, if_pos rfl]
  · rw [NamedTexts.get?_erase, if_neg hne]

theorem SameBut.unique {name : String} {text : Option String} {a b : Project}
    (ha : project.SameBut name text a) (hb : project.SameBut name text b) : a = b := by
  have hsecrets : a.secrets = b.secrets := by
    refine NamedTexts.ext_get? fun other ↦ ?_
    by_cases hother : other = name
    · rw [hother, ha.text, hb.text]
    · rw [ha.others other hother, hb.others other hother]
  rcases a with ⟨sharedA, membersA, servicesA, secretsA⟩
  rcases b with ⟨sharedB, membersB, servicesB, secretsB⟩
  rw [Project.mk.injEq]
  exact ⟨ha.sharedKeyId.trans hb.sharedKeyId.symm, ha.members.trans hb.members.symm,
    ha.services.trans hb.services.symm, hsecrets⟩

/-! ## Decrypting with any mediator -/

theorem leaves_decryptSecret {mediator : Option (Mediator (StateM σ))} (command : DecryptCommand)
    (hmediator : ∀ ask, mediator = some ask → ask.LeavesAlone kept) :
    Leaves kept project (envelope.decryptSecret command mediator) fun result ↦
      ∃ outcome, result = envelope.decryptWith command (mediator.map fun _ _ ↦ outcome) := by
  rcases hinquiry : Envelope.inquiry command mediator.isSome with error | i
  · rw [Envelope.decryptSecret_of_inquiry_eq_error hinquiry]
    refine Leaves.pure ⟨.silent, ?_⟩
    rw [Envelope.decryptWith, Option.isSome_map, hinquiry, error_bind]
  · obtain ⟨ask, rfl⟩ : ∃ ask, mediator = some ask := by
      have hmediated := (Envelope.inquiry_eq_ok_iff_comesTo.mp hinquiry).1
      exact Option.isSome_iff_exists.mp hmediated
    rw [Envelope.decryptSecret_of_inquiry_eq_ok hinquiry]
    refine Leaves.map (Leaves.imp (P := fun _ ↦ True) ?_ fun outcome _ ↦ ⟨outcome, ?_⟩)
    · exact hmediator ask rfl project i.request
    · rw [Envelope.decryptWith, Option.isSome_map, hinquiry, ok_bind]
      rfl

theorem leaves_decryptEntry {current : Project} (name encoded : String)
    (hmediator : ∀ ask, context.mediator = some ask → ask.LeavesAlone kept) :
    Leaves kept current (project.decryptEntry envelope context name encoded) fun result ↦
      ∃ outcome, result = project.decryptEntryWith envelope context.requester
        (context.mediator.map fun _ _ ↦ outcome) context.timeout name encoded := by
  refine Leaves.bind (leaves_decryptSecret _ hmediator) ?_
  rintro result ⟨outcome, rfl⟩
  exact Leaves.pure ⟨outcome, rfl⟩

theorem leaves_decryptEntries {current : Project} (entries : List (String × String))
    (hmediator : ∀ ask, context.mediator = some ask → ask.LeavesAlone kept) :
    Leaves kept current (project.decryptEntries envelope context entries) fun results ↦
      results.map Prod.fst = entries.map Prod.fst := by
  induction entries with
  | nil => exact Leaves.pure rfl
  | cons entry rest ih =>
    refine Leaves.bind (leaves_decryptEntry entry.1 entry.2 hmediator) fun result _ ↦ ?_
    refine Leaves.bind ih fun results hresults ↦ Leaves.pure ?_
    rw [List.map_cons, List.map_cons, hresults]

/-! ## Encrypting anew with any mediator -/

/-- What entries are decrypted to is all that counts of the decryption. -/
theorem reencryptWith_congr {entropy : Nat → EntropySource}
    {decrypt decrypt' : String → String → Except ProjectError String}
    {entries : List (String × String)}
    (h : ∀ entry ∈ entries, decrypt entry.1 entry.2 = decrypt' entry.1 entry.2) (index : Nat)
    (rotated : Project) :
    reencryptWith envelope entropy decrypt lookup index entries rotated
      = reencryptWith envelope entropy decrypt' lookup index entries rotated := by
  induction entries generalizing index rotated with
  | nil => rfl
  | cons entry rest ih =>
    obtain ⟨hentry, hrest⟩ := List.forall_mem_cons.mp h
    simp only [reencryptWith, hentry, ih hrest]

/-- With any mediator, encrypting entries anew comes to encrypting what each is decrypted to, with
some outcome of the mediator's call for it. -/
theorem reads_reencrypt {current : Project} {entropy : Nat → EntropySource}
    {entries : List (String × String)} (hsorted : NameSorted entries)
    (hmediator : ∀ ask, context.mediator = some ask → ask.LeavesAlone kept) (index : Nat)
    (rotated : Project) :
    Reads kept current (project.reencrypt envelope entropy context lookup index entries rotated)
      fun changed ↦ ∃ decrypt : String → String → Except ProjectError String,
        (∀ entry ∈ entries, ∃ outcome, decrypt entry.1 entry.2
          = project.decryptEntryWith envelope context.requester
            (context.mediator.map fun _ _ ↦ outcome) context.timeout entry.1 entry.2) ∧
        reencryptWith envelope entropy decrypt lookup index entries rotated = .ok changed := by
  induction entries generalizing index rotated with
  | nil =>
    refine Reads.of_outcome fun changed hok ↦ ?_
    exact ⟨fun _ _ ↦ .ok "", nofun, hok⟩
  | cons entry rest ih =>
    obtain ⟨name, encoded⟩ := entry
    obtain ⟨hbelow, hrest⟩ := List.pairwise_cons.mp hsorted
    refine Reads.bind (P := fun plaintext ↦ ∃ outcome,
      project.decryptEntryWith envelope context.requester (context.mediator.map fun _ _ ↦ outcome)
        context.timeout name encoded = .ok plaintext) ?_ ?_
    · refine Leaves.imp (leaves_decryptEntry name encoded hmediator) ?_
      rintro _ ⟨outcome, rfl⟩ plaintext hplaintext
      exact ⟨outcome, hplaintext⟩
    · rintro plaintext ⟨outcome, hplaintext⟩
      refine Reads.bind (Reads.of_outcome fun put hput ↦ hput) fun put hput ↦ ?_
      refine (ih hrest (index + 1) put).imp ?_
      rintro changed ⟨decrypt, hdecrypt, hchanged⟩
      -- The name of the entry is none of the others, so the outcome for it can be added.
      let decrypt' (other text : String) : Except ProjectError String :=
        if other = name then .ok plaintext else decrypt other text
      have hsame : ∀ entry ∈ rest, decrypt entry.1 entry.2 = decrypt' entry.1 entry.2 := by
        intro other hother
        have hne : other.1 ≠ name := fun heq ↦ String.lt_irrefl _ (heq ▸ hbelow other hother)
        simp only [decrypt', if_neg hne]
      refine ⟨decrypt', ?_, ?_⟩
      · rw [List.forall_mem_cons]
        refine ⟨⟨outcome, ?_⟩, fun other hother ↦ ?_⟩
        · rw [hplaintext]
          exact if_pos rfl
        · rw [← hsame other hother]
          exact hdecrypt other hother
      · have hname : decrypt' name encoded = .ok plaintext := if_pos rfl
        rw [reencryptWith, hname, ok_bind, hput, ok_bind, ← reencryptWith_congr hsame]
        exact hchanged

theorem reads_rotated {entropy : Nat → EntropySource} {current : Project}
    (hmediator : ∀ ask, context.mediator = some ask → ask.LeavesAlone kept)
    (members services : List KeyId) :
    Reads kept current (project.rotated envelope entropy context lookup members services)
      (project.Reencrypts envelope entropy context lookup members services) := by
  refine (reads_reencrypt project.secrets.sorted hmediator 0 _).imp ?_
  rintro changed ⟨decrypt, hdecrypt, hchanged⟩
  obtain ⟨secrets, hok, hother, hsame⟩ :=
    reencryptWith_of_renews project.secrets.sorted (renews_of_reencryptWith hchanged)
  obtain rfl := Except.ok.inj (hchanged.symm.trans hok)
  refine ⟨rfl, rfl, rfl, ?_, ?_⟩
  · refine NamedTexts.names_eq_iff.mpr fun name ↦ ?_
    rcases hname : project.secrets.get? name with _ | encoded
    · exact iff_of_true ((hother name hname).trans hname) rfl
    · obtain ⟨k, hk⟩ := NamedTexts.exists_getElem?_of_lookup hname
      obtain ⟨text, -, hfound⟩ := hsame k name encoded hk
      simp [hfound]
  · intro k name encoded hk
    obtain ⟨text, hrenew, hfound⟩ := hsame k name encoded hk
    rw [Nat.zero_add] at hrenew
    obtain ⟨plaintext, hplaintext, hencrypt, -⟩ := renew_eq_ok_iff.mp hrenew
    obtain ⟨outcome, houtcome⟩ := hdecrypt (name, encoded) (List.mem_of_getElem? hk)
    exact ⟨outcome, plaintext, text, houtcome.symm.trans hplaintext, hencrypt, hfound⟩

end Project

namespace ProjectSecrets

/-! ## Calls -/

/-- A call that changes a project. -/
inductive Change (σ : Type) where
  | set (entropy : EntropySource) (name plaintext : String) (format : WireFormat)
    (lookup : KeyLookup)
  | remove (name : String)
  | rotate (entropy : Nat → EntropySource) (members services : List KeyId)
    (context : DecryptContext (StateM σ)) (lookup : KeyLookup)

inductive Call (σ : Type) where
  | names
  | get (name : String) (context : DecryptContext (StateM σ))
  | decryptAll (context : DecryptContext (StateM σ))
  | change (change : Change σ)

/-- What a change that succeeds makes of a project. -/
def Change.Effect (envelope : Envelope) (before after : Project) : Change σ → Prop
  | set entropy name plaintext format lookup =>
    Project.isName name ∧ ∃ encoded, envelope.encryptSecret entropy
        ⟨plaintext, before.sharedKeyId, before.recipientKeyIds, format⟩ lookup = .ok encoded ∧
      before.SameBut name (some encoded) after
  | remove name => before.secrets.get? name ≠ none ∧ before.SameBut name none after
  | rotate entropy members services context lookup =>
    before.Reencrypts envelope entropy context lookup members services after

/-- The changed project. -/
def Change.make (envelope : Envelope) (project : Project) :
    Change σ → ExceptT ProjectError (StateM σ) Project
  | set entropy name plaintext format lookup =>
    ExceptT.mk (pure (project.withSecret envelope entropy name plaintext format lookup))
  | remove name => ExceptT.mk (pure (project.withoutSecret name))
  | rotate entropy members services context lookup =>
    project.rotated envelope entropy context lookup members services

def Change.perform (secrets : ProjectSecrets (StateM σ)) :
    Change σ → ExceptT ProjectError (StateM σ) Unit
  | set entropy name plaintext format lookup => secrets.set entropy name plaintext format lookup
  | remove name => secrets.remove name
  | rotate entropy members services context lookup =>
    secrets.rotate entropy members services context lookup

/-- The mediator that a change asks, if there is one. -/
def Change.mediator? : Change σ → Option (Mediator (StateM σ))
  | set .. => none
  | remove _ => none
  | rotate _ _ _ context _ => context.mediator

namespace Call

/-- The call itself, without its answer. -/
def perform (secrets : ProjectSecrets (StateM σ)) : Call σ → ExceptT ProjectError (StateM σ) Unit
  | names => secrets.names >>= fun _ ↦ pure ()
  | get name context => secrets.get name context >>= fun _ ↦ pure ()
  | decryptAll context => secrets.decryptAll context >>= fun _ ↦ pure ()
  | change made => made.perform secrets

def mediator? : Call σ → Option (Mediator (StateM σ))
  | names => none
  | get _ context => context.mediator
  | decryptAll context => context.mediator
  | change made => made.mediator?

/-- The change that the call makes, if it does not only read. -/
def change? : Call σ → Option (Change σ)
  | change made => some made
  | _ => none

end Call

/-- Performs calls one after the other, each with an envelope of its own. Gives the changes that
succeeded, in order, and the state in the end. -/
def performAll (repository : ProjectRepository (StateM σ)) :
    List (Envelope × Call σ) → σ → List (Envelope × Change σ) × σ
  | [], state => ([], state)
  | (envelope, call) :: calls, state =>
    match (call.perform ⟨repository, envelope⟩).run.run state with
    | (.error _, after) => performAll repository calls after
    | (.ok (), after) =>
      let (changes, final) := performAll repository calls after
      ((call.change?.map fun change ↦ (envelope, change)).toList ++ changes, final)

/-- Changes that succeed one after the other lead from one project to another. -/
inductive Replays : List (Envelope × Change σ) → Project → Project → Prop
  | nil {project : Project} : Replays [] project project
  | cons {envelope : Envelope} {change : Change σ} {changes : List (Envelope × Change σ)}
    {before middle after : Project} (heffect : change.Effect envelope before middle)
    (hrest : Replays changes middle after) : Replays ((envelope, change) :: changes) before after

section Calls

variable {secrets : ProjectSecrets (StateM σ)} {repository : ProjectRepository (StateM σ)}
  {kept : σ → Project → Prop} {envelope : Envelope} {context : DecryptContext (StateM σ)}
  {state : σ} {project : Project}

/-! ## Calls that read -/

theorem names_reads (hguards : secrets.repository.Guards kept) :
    Reads kept project secrets.names fun names ↦ names = project.secrets.names := by
  refine (load_reads hguards).bind ?_
  rintro _ rfl
  exact Reads.of_outcome fun names hok ↦ (Except.ok.inj hok).symm

theorem get_reads (hguards : secrets.repository.Guards kept)
    (hmediator : ∀ ask, context.mediator = some ask → ask.LeavesAlone kept) (name : String) :
    Reads kept project (secrets.get name context) fun plaintext ↦
      ∃ outcome encoded, project.secrets.get? name = some encoded ∧
        project.decryptEntryWith secrets.envelope context.requester
            (context.mediator.map fun _ _ ↦ outcome) context.timeout name encoded
          = .ok plaintext := by
  refine (load_reads hguards).bind ?_
  rintro loaded rfl
  refine Reads.bind (P := fun encoded ↦ loaded.secrets.get? name = some encoded) ?_ ?_
  · refine Reads.of_outcome fun encoded hok ↦ ?_
    rw [Project.secret] at hok
    rcases hname : loaded.secrets.get? name with _ | found
    · rw [hname] at hok
      cases hok
    · rw [hname] at hok
      rw [Except.ok.inj hok]
  · intro encoded hencoded
    refine (Project.leaves_decryptEntry name encoded hmediator).imp ?_
    rintro _ ⟨outcome, rfl⟩ plaintext hok
    exact ⟨outcome, encoded, hencoded, hok⟩

theorem decryptAll_reads (hguards : secrets.repository.Guards kept)
    (hmediator : ∀ ask, context.mediator = some ask → ask.LeavesAlone kept) :
    Reads kept project (secrets.decryptAll context) fun results ↦
      results.map Prod.fst = project.secrets.names := by
  refine (load_reads hguards).bind ?_
  rintro loaded rfl
  refine Leaves.map ((Project.leaves_decryptEntries loaded.secrets.entries hmediator).imp ?_)
  rintro results hresults _ ⟨⟩
  exact hresults

theorem settles_of_reads {α : Type} {read : ExceptT ProjectError (StateM σ) α} {P : α → Prop}
    (h : Reads kept project read P) (hkept : kept state project) :
    Settles kept (read >>= fun _ ↦ pure ()) state project fun after ↦ after = project := by
  obtain ⟨hafter, -⟩ := h state hkept
  rcases hrun : read.run.run state with ⟨error | a, after⟩
  · rw [hrun] at hafter
    exact .inl ⟨error, after, run_bind_error _ hrun, hafter⟩
  · rw [hrun] at hafter
    exact .inr ⟨project, after, run_bind_ok _ hrun, hafter, rfl⟩

/-! ## One call -/

theorem Change.perform_eq_edit (made : Change σ) :
    made.perform secrets = secrets.edit fun project ↦ made.make secrets.envelope project := by
  cases made <;> rfl

/-- What comes of making a change is its effect, and nothing is saved by it. -/
theorem Change.make_reads {made : Change σ} {current : Project}
    (hmediator : ∀ ask, made.mediator? = some ask → ask.LeavesAlone kept) :
    Reads kept current (made.make envelope project) fun changed ↦
      made.Effect envelope project changed := by
  cases made with
  | set entropy name plaintext format lookup =>
    refine Reads.of_outcome fun changed hok ↦ ?_
    obtain ⟨encoded, hencrypt, hname, rfl⟩ := Project.withSecret_eq_ok_iff.mp hok
    exact ⟨hname, encoded, hencrypt, .insert name encoded⟩
  | remove name =>
    refine Reads.of_outcome fun changed hok ↦ ?_
    obtain ⟨hname, rfl⟩ := Project.withoutSecret_eq_ok_iff.mp hok
    exact ⟨hname, .erase name⟩
  | rotate entropy members services context lookup =>
    exact Project.reads_rotated hmediator members services

/-- A change that fails leaves the project, and one that succeeds has its effect. -/
theorem Change.perform_settles (hguards : secrets.repository.Guards kept) {made : Change σ}
    (hmediator : ∀ ask, made.mediator? = some ask → ask.LeavesAlone kept)
    (hkept : kept state project) :
    Settles kept (made.perform secrets) state project fun changed ↦
      made.Effect secrets.envelope project changed := by
  rw [perform_eq_edit]
  exact edit_settles_of_reads hguards hkept (make_reads hmediator)

/-- **One call.** A call that fails leaves the project, one that only reads does so too, and one
that makes a change has its effect. -/
theorem Call.perform_settles (hguards : secrets.repository.Guards kept) {call : Call σ}
    (hmediator : ∀ ask, call.mediator? = some ask → ask.LeavesAlone kept)
    (hkept : kept state project) :
    Settles kept (call.perform secrets) state project fun changed ↦
      match call.change? with
      | some made => made.Effect secrets.envelope project changed
      | none => changed = project := by
  cases call with
  | names => exact settles_of_reads (names_reads hguards) hkept
  | get name context => exact settles_of_reads (get_reads hguards hmediator name) hkept
  | decryptAll context => exact settles_of_reads (decryptAll_reads hguards hmediator) hkept
  | change made => exact Change.perform_settles hguards hmediator hkept

/-! ## A repository that fails -/

/-- A repository that is a state and fails as foretold: with the project, the state holds what is to
become of the loads and saves to come. -/
def foretold : ProjectRepository (StateM (Project × List (Option RepositoryError))) where
  load := ExceptT.mk fun
    | (project, some fault :: faults) => (.error fault, project, faults)
    | (project, faults) => (.ok project, project, faults.tail)
  save changed := ExceptT.mk fun
    | (project, some fault :: faults) => (.error fault, project, faults)
    | (_, faults) => (.ok (), changed, faults.tail)

theorem foretold_guards : foretold.Guards fun state project ↦ state.1 = project where
  load := by
    rintro _ ⟨project, faults⟩ rfl
    rcases faults with _ | ⟨_ | fault, faults⟩
    · exact ⟨rfl, fun _ hok ↦ (Except.ok.inj hok).symm⟩
    · exact ⟨rfl, fun _ hok ↦ (Except.ok.inj hok).symm⟩
    · exact ⟨rfl, nofun⟩
  save := by
    rintro ⟨project, faults⟩ _ rfl changed
    rcases faults with _ | ⟨_ | fault, faults⟩
    · exact .inl ⟨_, rfl, rfl⟩
    · exact .inl ⟨_, rfl, rfl⟩
    · exact .inr ⟨fault, _, rfl, rfl⟩

/-! ## All calls -/

/-- **All calls.** Whatever fails, and for whatever reason, the project that is kept in the end is
what the changes that succeeded, in their order, make of the one that was kept before. -/
theorem performAll_replays (hguards : repository.Guards kept) {calls : List (Envelope × Call σ)}
    (hmediators : ∀ call ∈ calls, ∀ ask, call.2.mediator? = some ask → ask.LeavesAlone kept)
    (hkept : kept state project) :
    ∃ changed, kept (performAll repository calls state).2 changed ∧
      Replays (performAll repository calls state).1 project changed := by
  induction calls generalizing state project with
  | nil => exact ⟨project, hkept, .nil⟩
  | cons call calls ih =>
    obtain ⟨envelope, call⟩ := call
    obtain ⟨hcall, hcalls⟩ := List.forall_mem_cons.mp hmediators
    rcases @Call.perform_settles _ ⟨repository, envelope⟩ _ _ _ hguards _ hcall hkept with
      ⟨error, after, hrun, hafter⟩ | ⟨middle, after, hrun, hafter, heffect⟩
    · rw [performAll, hrun]
      exact ih hcalls hafter
    · obtain ⟨changed, hchanged, hreplays⟩ := ih hcalls hafter
      rw [performAll, hrun]
      refine ⟨changed, hchanged, ?_⟩
      rcases hchange : call.change? with _ | made
      · rw [hchange] at heffect
        rwa [← heffect]
      · rw [hchange] at heffect
        exact .cons heffect hreplays

/-- Of five calls only the last has an effect: the first is not saved, the second cannot encrypt,
the third cannot decrypt, and the fourth only reads. -/
theorem performAll_replays_foretold :
    let envelope : Envelope := ⟨.labelled, Shamir.scheme⟩
    let context : DecryptContext (StateM (Project × List (Option RepositoryError))) :=
      ⟨some .two, some fun _ (project, faults) ↦ (.silent, project, faults.tail), 500⟩
    let project : Project := ⟨⟨"shared"⟩, [⟨"member"⟩], [], .ofList [("TOKEN", "not a secret")]⟩
    let run := performAll foretold
      [(envelope, .change (.remove "TOKEN")),
        (envelope, .change (.set (fun _ _ ↦ 0) "TOKEN" "s3cret" .simple fun _ ↦ .ok none)),
        (envelope, .change (.rotate (fun _ _ _ ↦ 0) [⟨"other"⟩] [] context fun _ ↦ .ok none)),
        (envelope, .decryptAll context),
        (envelope, .change (.remove "TOKEN"))]
      (project, [none, some .notFound])
    run.1 = [(envelope, .remove "TOKEN")] ∧ run.2.1 = Project.create ⟨"shared"⟩ [⟨"member"⟩] [] ∧
      ∃ changed, run.2.1 = changed ∧ Replays run.1 project changed := by
  have hquiet : Mediator.LeavesAlone (fun _ (project, faults) ↦ (.silent, project, faults.tail))
      fun (state : Project × List (Option RepositoryError)) project ↦ state.1 = project := by
    rintro project request ⟨_, faults⟩ rfl
    exact ⟨rfl, trivial⟩
  refine ⟨by rfl, by rfl, ?_⟩
  apply performAll_replays foretold_guards
  · simp only [List.forall_mem_cons, List.not_mem_nil, false_imp_iff, implies_true, and_true,
      Call.mediator?, Change.mediator?]
    refine ⟨nofun, nofun, ?_, ?_, nofun⟩
    · rintro _ ⟨⟩
      exact hquiet
    · rintro _ ⟨⟩
      exact hquiet
  · rfl

end Calls

end ProjectSecrets

end DualSeal

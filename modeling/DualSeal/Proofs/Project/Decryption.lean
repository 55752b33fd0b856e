import DualSeal.Proofs.Envelope.Contact
import DualSeal.Proofs.Project.Repository

/-!
# Decrypting one variable and all of them

A mediator's calls may do anything to the state, as long as the way in which they end depends on the
request only: then the state afterwards tells what was asked. With such a mediator, what becomes of
a variable is a function of the shared key and of the text under its name (`Project.getWith`), and
to decrypt all variables is to decrypt each by itself, one after the other. So they agree, and no
variable has to do with what becomes of another (`decryptAll_agrees`).

Names and texts are arbitrary, and so are the envelope and the repository.
-/

namespace DualSeal

variable {σ : Type}

/-- A mediator whose calls end in a way that depends on the request only, but may act on a state. -/
def Mediator.acting (effect : MediatorRequest → σ → σ)
    (outcome : MediatorRequest → MediatorOutcome) : Mediator (StateM σ) := fun request state ↦
  (outcome request, effect request state)

/-- A context with such a mediator, if there is one. -/
def DecryptContext.acting (effect : MediatorRequest → σ → σ) (requester : Option KeyPair)
    (outcome : Option (MediatorRequest → MediatorOutcome)) (timeout : Milliseconds) :
    DecryptContext (StateM σ) :=
  ⟨requester, outcome.map (Mediator.acting effect), timeout⟩

/-- A state after requests, one after the other. -/
def Mediator.asked (effect : MediatorRequest → σ → σ) (requests : List MediatorRequest)
    (state : σ) : σ :=
  requests.foldl (fun state request ↦ effect request state) state

variable {effect : MediatorRequest → σ → σ} {envelope : Envelope} {project : Project}
  {requester : Option KeyPair} {outcome : Option (MediatorRequest → MediatorOutcome)}
  {timeout : Milliseconds} {state : σ}

theorem Mediator.asked_append (first second : List MediatorRequest) :
    Mediator.asked effect (first ++ second) state
      = Mediator.asked effect second (Mediator.asked effect first state) :=
  List.foldl_append

theorem Entries.lookup_map_mk {α : Type} (names : List String) (f : String → α) (name : String) :
    (names.map fun name ↦ (name, f name)).lookup name
      = if name ∈ names then some (f name) else none := by
  split_ifs with hname
  · exact List.lookup_graph f hname
  · rw [List.lookup_eq_none_iff, List.forall_mem_map]
    exact fun other hother ↦ bne_iff_ne.mpr fun heq ↦ hname (heq ▸ hother)

namespace Envelope

/-- What the mediator is asked in a decryption, if it is asked. -/
def request? (command : DecryptCommand) (mediated : Bool) : Option MediatorRequest :=
  (inquiry command mediated).toOption.map Inquiry.request

/-- A decryption ends as it does without effects, and the mediator is asked what it asks. -/
theorem run_decryptSecret_acting (command : DecryptCommand) :
    (envelope.decryptSecret command (outcome.map (Mediator.acting effect))).run state
      = (envelope.decryptWith command outcome,
        Mediator.asked effect (request? command outcome.isSome).toList state) := by
  rw [decryptWith, request?]
  rcases hinquiry : inquiry command outcome.isSome with error | i
  · rw [decryptSecret_of_inquiry_eq_error (by rwa [Option.isSome_map])]
    rfl
  · -- Without a mediator there is no inquiry.
    have hmediated := (inquiry_eq_ok_iff_comesTo.mp hinquiry).1
    obtain ⟨outcome, rfl⟩ := Option.isSome_iff_exists.mp hmediated
    rw [Option.map_some, decryptSecret_of_inquiry_eq_ok hinquiry]
    rfl

end Envelope

/-! ## The variables of a project -/

namespace Project

/-- What becomes of the variable of this name. -/
def getWith (project : Project) (envelope : Envelope) (requester : Option KeyPair)
    (outcome : Option (MediatorRequest → MediatorOutcome)) (timeout : Milliseconds)
    (name : String) : Except ProjectError String := do
  project.decryptEntryWith envelope requester outcome timeout name (← project.secret name)

/-- What the mediator is asked for the variable of this name, if it is asked. -/
def request? (project : Project) (requester : Option KeyPair) (mediated : Bool)
    (timeout : Milliseconds) (name : String) : Option MediatorRequest := do
  Envelope.request? ⟨← project.secrets.get? name, project.sharedKeyId, requester, timeout⟩ mediated

/-- What becomes of a variable is up to the shared key and the text under its name. -/
theorem getWith_congr {other : Project} {name : String}
    (hshared : other.sharedKeyId = project.sharedKeyId)
    (htext : other.secrets.get? name = project.secrets.get? name) :
    other.getWith envelope requester outcome timeout name
      = project.getWith envelope requester outcome timeout name := by
  rw [getWith, getWith, secret, secret, htext]
  rcases project.secrets.get? name with _ | encoded
  · dsimp only
    rw [error_bind, error_bind]
  · dsimp only
    rw [ok_bind, ok_bind, decryptEntryWith, decryptEntryWith, hshared]

/-- **One entry.** -/
theorem run_decryptEntry_acting (name encoded : String) :
    (project.decryptEntry envelope (.acting effect requester outcome timeout) name encoded).run
        state
      = (project.decryptEntryWith envelope requester outcome timeout name encoded,
        Mediator.asked effect (Envelope.request? ⟨encoded, project.sharedKeyId, requester, timeout⟩
          outcome.isSome).toList state) := by
  have hrun : (project.decryptEntry envelope (.acting effect requester outcome timeout) name
        encoded).run state
      = (Except.mapError (ProjectError.envelope name) <$> envelope.decryptSecret
          ⟨encoded, project.sharedKeyId, requester, timeout⟩
          (outcome.map (Mediator.acting effect))).run state := rfl
  rw [hrun, StateT.run_map, Envelope.run_decryptSecret_acting]
  rfl

/-- **Entries one after the other.** None stops another, and the mediator is asked for each. -/
theorem run_decryptEntries_acting (entries : List (String × String)) :
    (project.decryptEntries envelope (.acting effect requester outcome timeout) entries).run state
      = (entries.map fun entry ↦ (entry.1,
          project.decryptEntryWith envelope requester outcome timeout entry.1 entry.2),
        Mediator.asked effect (entries.filterMap fun entry ↦ Envelope.request?
          ⟨entry.2, project.sharedKeyId, requester, timeout⟩ outcome.isSome) state) := by
  induction entries generalizing state with
  | nil => rfl
  | cons entry rest ih =>
    obtain ⟨name, encoded⟩ := entry
    rw [decryptEntries, StateT.run_bind, run_decryptEntry_acting, List.filterMap_eq_flatMap_toList,
      List.flatMap_cons, ← List.filterMap_eq_flatMap_toList, Mediator.asked_append]
    simp only [bind_pure_comp, StateT.run_map, ih]
    rfl

end Project

namespace ProjectSecrets

variable {secrets : ProjectSecrets (StateM σ)} {start : σ}

theorem run_load (h : secrets.repository.load.run.run start = (.ok project, state)) :
    secrets.load.run.run start = (.ok project, state) :=
  run_adapt _ h

theorem run_get_acting (h : secrets.repository.load.run.run start = (.ok project, state))
    (name : String) :
    (secrets.get name (.acting effect requester outcome timeout)).run.run start
      = (project.getWith secrets.envelope requester outcome timeout name,
        Mediator.asked effect
          (project.request? requester outcome.isSome timeout name).toList state) := by
  rw [get, run_bind_ok _ (run_load h), Project.getWith, Project.secret, Project.request?]
  rcases project.secrets.get? name with _ | encoded
  · exact run_bind_error _ rfl
  · dsimp only
    rw [mk_pure_ok_bind]
    exact Project.run_decryptEntry_acting name encoded

theorem run_decryptAll_acting (h : secrets.repository.load.run.run start = (.ok project, state)) :
    (secrets.decryptAll (.acting effect requester outcome timeout)).run.run start
      = (.ok (project.secrets.names.map fun name ↦
          (name, project.getWith secrets.envelope requester outcome timeout name)),
        Mediator.asked effect (project.secrets.names.filterMap
          (project.request? requester outcome.isSome timeout)) state) := by
  have hget : ∀ entry ∈ project.secrets.entries, project.secrets.get? entry.1 = some entry.2 :=
    fun entry hentry ↦ NamedTexts.get?_of_mem hentry
  have hmap : project.secrets.entries.map (fun entry ↦ (entry.1,
        project.decryptEntryWith secrets.envelope requester outcome timeout entry.1 entry.2))
      = project.secrets.names.map fun name ↦
        (name, project.getWith secrets.envelope requester outcome timeout name) := by
    rw [NamedTexts.names, List.map_map]
    refine List.map_congr_left fun entry hentry ↦ ?_
    rw [Function.comp_apply, Project.getWith, Project.secret, hget entry hentry]
    rfl
  have hrequests : project.secrets.entries.filterMap (fun entry ↦ Envelope.request?
        ⟨entry.2, project.sharedKeyId, requester, timeout⟩ outcome.isSome)
      = project.secrets.names.filterMap (project.request? requester outcome.isSome timeout) := by
    rw [NamedTexts.names, List.filterMap_map]
    refine List.filterMap_congr fun entry hentry ↦ ?_
    rw [Function.comp_apply, Project.request?, hget entry hentry]
    rfl
  rw [decryptAll, run_bind_ok _ (run_load h), ExceptT.run_lift, StateT.run_map,
    Project.run_decryptEntries_acting, hmap, hrequests]
  rfl

/-- **Batch and single decryptions agree.** Once the project is loaded, the decryption of all
variables comes to its end. There is one entry for each name, in order, and it is what the
decryption of this variable by itself comes to, from wherever the same project is loaded; other
names are not found. The mediator is asked for each name in turn what it is asked for this variable
by itself, which is one request at most.

So what else there is has nothing to do with it: with the same shared key and the same text under
a name, the entry of that name is the same, whatever the other variables, the recipients, the
repository and the effects of the mediator's calls are. -/
theorem decryptAll_agrees
    (hload : secrets.repository.load.run.run start = (.ok project, state))
    (effect : MediatorRequest → σ → σ) (requester : Option KeyPair)
    (outcome : Option (MediatorRequest → MediatorOutcome)) (timeout : Milliseconds) :
    ∃ results,
      (secrets.decryptAll (.acting effect requester outcome timeout)).run.run start
        = (.ok results, Mediator.asked effect (project.secrets.names.filterMap
            (project.request? requester outcome.isSome timeout)) state) ∧
      results.map Prod.fst = project.secrets.names ∧
      project.secrets.names.Pairwise (· < ·) ∧
      (∀ name ∈ project.secrets.names, ∃ entry, results.lookup name = some entry ∧
        ∀ {before loaded : σ}, secrets.repository.load.run.run before = (.ok project, loaded) →
          (secrets.get name (.acting effect requester outcome timeout)).run.run before
            = (entry, Mediator.asked effect
                (project.request? requester outcome.isSome timeout name).toList loaded)) ∧
      (∀ name ∉ project.secrets.names, results.lookup name = none ∧
        ∀ {before loaded : σ}, secrets.repository.load.run.run before = (.ok project, loaded) →
          (secrets.get name (.acting effect requester outcome timeout)).run.run before
            = (.error (.notFound name), loaded)) ∧
      ∀ {τ : Type} {others : ProjectSecrets (StateM τ)} {other : Project} {before loaded after : τ}
        {effect' : MediatorRequest → τ → τ} {results' : List (String × Except ProjectError String)},
        others.envelope = secrets.envelope →
        others.repository.load.run.run before = (.ok other, loaded) →
        other.sharedKeyId = project.sharedKeyId →
        (others.decryptAll (.acting effect' requester outcome timeout)).run.run before
          = (.ok results', after) →
        ∀ name, other.secrets.get? name = project.secrets.get? name →
          results'.lookup name = results.lookup name := by
  refine ⟨_, run_decryptAll_acting hload, ?_, project.secrets.pairwise_names, fun name hname ↦ ?_,
    fun name hname ↦ ⟨?_, fun hbefore ↦ ?_⟩, ?_⟩
  · rw [List.map_map]
    exact List.map_id _
  · refine ⟨_, (Entries.lookup_map_mk _ _ name).trans (if_pos hname), fun hbefore ↦ ?_⟩
    exact run_get_acting hbefore name
  · exact (Entries.lookup_map_mk _ _ name).trans (if_neg hname)
  · have hnone : project.secrets.get? name = none := by
      rwa [NamedTexts.mem_names, not_not] at hname
    rw [run_get_acting hbefore, Project.getWith, Project.secret, Project.request?, hnone]
    rfl
  · intro τ others other before loaded after effect' results' henvelope hother hshared hrun name
      htext
    rw [run_decryptAll_acting hother, henvelope] at hrun
    obtain rfl := Except.ok.inj (Prod.mk.inj hrun).1
    have hnames : name ∈ other.secrets.names ↔ name ∈ project.secrets.names := by
      rw [NamedTexts.mem_names, NamedTexts.mem_names, htext]
    rw [Entries.lookup_map_mk, Entries.lookup_map_mk, Project.getWith_congr hshared htext]
    simp only [hnames]

section Broken

open KeyPair

/-- A secret next to a text that is none, and alone. -/
theorem decryptAll_agrees_broken :
    let secrets : ProjectSecrets (StateM (Option Project)) :=
      ⟨.inMemory, ⟨.labelled, Shamir.scheme⟩⟩
    let context : DecryptContext (StateM (Option Project)) := .acting (fun _ state ↦ state)
      (some two) (some (LocalMediator.outcome ⟨one, .labelled⟩)) 500
    ∃ text results alone, let project : Project := ⟨one.id, [two.id], [], .ofList [("TOKEN", text)]⟩
      let broken : Project := ⟨one.id, [two.id], [],
        .ofList [("TOKEN", text), ("BROKEN", "garbage(")]⟩
      (secrets.decryptAll context).run.run (some broken) = (.ok results, some broken) ∧
      results.map Prod.fst = ["BROKEN", "TOKEN"] ∧
      results.lookup "TOKEN" = some (.ok "s3cret") ∧
      (secrets.decryptAll context).run.run (some project) = (.ok alone, some project) ∧
      alone.lookup "TOKEN" = some (.ok "s3cret") := by
  intro secrets context
  have hone : Envelope.directory publicKeys one.id = .ok (some one.publicKey) :=
    directory_publicKeys (.head _)
  have htwo : Envelope.directory publicKeys two.id = .ok (some two.publicKey) :=
    directory_publicKeys (.tail _ (.head _))
  obtain ⟨text, hencrypt⟩ := exists_encryptSecret_labelled (.head _) (.tail _ (.head _))
    one_id_ne_two_id (show "s3cret" ≠ "" by decide) (fun _ i ↦ UInt8.ofNat (7 * i)) .simple
  have hdecrypt : Envelope.decryptLocal secrets.envelope one text two 500 = .ok "s3cret" :=
    Envelope.decryptLocal_encryptSecret hencrypt
      (fun _ _ key _ ↦ ShareEncryption.labelled_roundTrips key) rfl (.head _)
      (Envelope.knowsPair_of_lookup hone) (Envelope.knowsPair_of_lookup htwo)
      (ShareEncryption.labelled_roundTrips _) (ShareEncryption.labelled_roundTrips _)
  let project : Project := ⟨one.id, [two.id], [], .ofList [("TOKEN", text)]⟩
  let broken : Project := ⟨one.id, [two.id], [],
    .ofList [("TOKEN", text), ("BROKEN", "garbage(")]⟩
  have hnames : broken.secrets.names = ["BROKEN", "TOKEN"] := rfl
  have htoken : broken.secrets.get? "TOKEN" = some text := rfl
  have hentry : broken.getWith secrets.envelope (some two)
      (some (LocalMediator.outcome ⟨one, .labelled⟩)) 500 "TOKEN" = .ok "s3cret" := by
    rw [Project.getWith, Project.secret, htoken]
    exact mapError_eq_ok_iff.mpr hdecrypt
  have hload : ∀ stored : Project,
      secrets.repository.load.run.run (some stored) = (.ok stored, some stored) := fun _ ↦ rfl
  obtain ⟨results, hrun, hfirst, -, hentries, -, hother⟩ := decryptAll_agrees (hload broken)
    (fun _ state ↦ state) (some two) (some (LocalMediator.outcome ⟨one, .labelled⟩)) 500
  obtain ⟨alone, halone, -⟩ := decryptAll_agrees (hload project)
    (fun _ state ↦ state) (some two) (some (LocalMediator.outcome ⟨one, .labelled⟩)) 500
  rw [Mediator.asked, List.foldl_fixed] at hrun halone
  obtain ⟨entry, hlookup, hget⟩ := hentries "TOKEN" (hnames ▸ .tail _ (.head _))
  obtain rfl := (Prod.mk.inj ((run_get_acting (hload broken) "TOKEN").symm.trans
    (hget (hload broken)))).1
  rw [hentry] at hlookup
  refine ⟨text, results, alone, hrun, hfirst.trans hnames, hlookup, halone, ?_⟩
  rw [hother rfl (hload project) rfl halone "TOKEN" rfl]
  exact hlookup

end Broken

end ProjectSecrets

end DualSeal

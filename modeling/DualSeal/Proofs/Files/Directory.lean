import DualSeal.Files.Tree
import DualSeal.Proofs.Outcome
import DualSeal.Proofs.Text.Utf8

/-!
# Files of a directory

What is written into a file is read from it (`readText_set`), and no other file of its directory
changes (`Puts.readText_of_ne`). Creating directories only adds to a tree, and what is read from a
tree is still read when something was added (`Extends.readText`).
-/

namespace DualSeal

/-! ## Names -/

/-- A name that leads to an entry of the directory that it is looked up in. -/
structure IsFileName (name : String) : Prop where
  ne_empty : name ≠ ""
  ne_dot : name ≠ "."
  ne_back : name ≠ Path.back
  noSlash : '/' ∉ name.toList

namespace Path

variable (dir : Path) {name : String}

/-- The parts of a path in a directory: what leads to the directory, and the name. -/
theorem exists_parts_child (h : IsFileName name) :
    ∃ front, (dir.child name).parts = front ++ [name] ∧ front.filter isStep = dir.steps := by
  have hname : name.toList.splitOn '/' = [name.toList] := List.splitOn_eq_singleton h.noSlash
  have hrelative : ¬isAbsolute ⟨name⟩ = true := by
    rw [isAbsolute, decide_eq_true_eq]
    exact fun hhead ↦ h.noSlash (List.mem_of_mem_head? hhead)
  -- In each case the text is a front, a slash and the name, where there is a front at all.
  have hparts : ∀ front : List Char,
      ((front ++ '/' :: name.toList).splitOn '/').map String.ofList
        = (front.splitOn '/').map String.ofList ++ [name] := by
    intro front
    rw [List.splitOn_append_cons_self, hname, List.map_append, List.map_singleton,
      String.ofList_toList]
  rw [child, join, if_neg hrelative]
  by_cases hempty : dir.text = ""
  · refine ⟨[], ?_, ?_⟩
    · rw [if_pos (.inl hempty), parts, String.toList_append, hempty, String.toList_empty,
        List.nil_append, hname, List.map_singleton, String.ofList_toList]
      rfl
    · rw [steps, parts, hempty]
      rfl
  by_cases hslash : dir.text.toList.getLast? = some '/'
  · obtain ⟨front, hfront⟩ := List.getLast?_eq_some_iff.mp hslash
    refine ⟨(front.splitOn '/').map String.ofList, ?_, ?_⟩
    · rw [if_pos (.inr hslash), parts, String.toList_append, hfront, List.append_assoc,
        List.singleton_append, hparts]
    · rw [steps, parts, hfront, List.splitOn_append_cons_self, List.splitOn_nil, List.map_append,
        List.filter_append]
      exact (List.append_nil _).symm
  · refine ⟨dir.parts, ?_, rfl⟩
    rw [if_neg (not_or.mpr ⟨hempty, hslash⟩), parts, String.toList_append, String.toList_append,
      List.append_assoc]
    exact hparts dir.text.toList

variable {dir}

theorem isStep_of_isFileName (h : IsFileName name) : isStep name = true := by
  simp [isStep, h.ne_empty, h.ne_dot]

theorem steps_child (h : IsFileName name) : (dir.child name).steps = dir.steps ++ [name] := by
  obtain ⟨front, hparts, hfront⟩ := exists_parts_child dir h
  rw [steps, hparts, List.filter_append, hfront, List.filter_cons,
    if_pos (isStep_of_isFileName h), List.filter_nil]

theorem ending_child (h : IsFileName name) : (dir.child name).ending = .none := by
  obtain ⟨front, hparts, -⟩ := exists_parts_child dir h
  rw [ending, hparts, List.reverse_append, List.reverse_singleton, List.singleton_append]
  dsimp only
  rw [if_neg, if_neg h.ne_empty]
  exact not_or.mpr ⟨h.ne_dot, fun hlast ↦ h.ne_empty hlast.1⟩

theorem text_child_ne (h : IsFileName name) : (dir.child name).text ≠ "" := by
  obtain ⟨front, hparts, -⟩ := exists_parts_child dir h
  intro hempty
  rw [parts, hempty] at hparts
  have hlast := congrArg List.getLast? hparts
  rw [List.getLast?_concat] at hlast
  exact h.ne_empty (Option.some.inj hlast).symm

theorem isUsable_child (hdir : dir.isUsable = true) (hnul : Char.ofNat 0 ∉ name.toList)
    (hshort : (dir.child name).text.utf8ByteSize ≤ maxLength) :
    (dir.child name).isUsable = true := by
  have hdirNul : Char.ofNat 0 ∉ dir.text.toList := by
    simp only [isUsable, Bool.and_eq_true, Bool.not_eq_true', List.contains_eq_mem,
      decide_eq_false_iff_not] at hdir
    exact hdir.2
  have hslash : Char.ofNat 0 ≠ '/' := by decide
  have hchild : Char.ofNat 0 ∉ (dir.child name).text.toList := by
    rw [child, join]
    split_ifs
    · exact hnul
    · simp [hdirNul, hnul]
    · simp [hdirNul, hnul, hslash]
  simp only [isUsable, Bool.and_eq_true, decide_eq_true_eq, Bool.not_eq_true',
    List.contains_eq_mem, decide_eq_false_iff_not]
  exact ⟨hshort, hchild⟩

end Path

/-! ## Files in a directory -/

namespace FileTree

variable {tree : FileTree} {dir : Path} {name : String}

/-- Where a name in a directory leads: through the directory, and then to the name, if it may be a
name at all. -/
theorem locate_child (h : IsFileName name) :
    tree.locate (dir.child name) =
      if !(dir.child name).isUsable then .error .badName
      else tree.enter [] dir.steps >>= fun above ↦
        if maxNameLength < name.utf8ByteSize then .error .badName else .ok (above ++ [name]) := by
  rw [locate, if_neg (Path.text_child_ne h), Path.steps_child h, List.dropLast_concat,
    List.getLast?_concat]
  simp only [if_neg h.ne_back]
  rfl

theorem locate_child_eq_ok {location : Location} (h : IsFileName name)
    (hlocate : tree.locate (dir.child name) = .ok location) :
    ∃ above, tree.enter [] dir.steps = .ok above ∧ location = above ++ [name] := by
  rw [locate_child h] at hlocate
  split at hlocate
  · cases hlocate
  obtain ⟨above, habove, hrest⟩ := bind_eq_ok_iff.mp hlocate
  split at hrest
  · cases hrest
  · exact ⟨above, habove, (Except.ok.inj hrest).symm⟩

theorem locate_child_of_enter {above : Location} (h : IsFileName name)
    (husable : (dir.child name).isUsable = true) (hshort : name.utf8ByteSize ≤ maxNameLength)
    (henter : tree.enter [] dir.steps = .ok above) :
    tree.locate (dir.child name) = .ok (above ++ [name]) := by
  rw [locate_child h, husable, henter, ok_bind, if_neg (Nat.not_lt_of_le hshort)]
  rfl

theorem locate_child_congr {other : FileTree} (h : IsFileName name)
    (henter : other.enter [] dir.steps = tree.enter [] dir.steps) :
    other.locate (dir.child name) = tree.locate (dir.child name) := by
  rw [locate_child h, locate_child h, henter]

/-- Every directory of a tree is one in the other. -/
def KeepsDirectories (tree after : FileTree) : Prop :=
  ∀ location, tree.get? location = some .directory → after.get? location = some .directory

namespace KeepsDirectories

variable {after : FileTree} {path : Path}

theorem enter {start above : Location} {names : List String} (h : tree.KeepsDirectories after)
    (henter : tree.enter start names = .ok above) : after.enter start names = .ok above := by
  induction names generalizing start with
  | nil => exact henter
  | cons name names ih =>
    rw [FileTree.enter] at henter ⊢
    split_ifs at henter ⊢ with hback hlong
    · exact ih henter
    · rcases hentry : tree.get? (start ++ [name]) with _ | ⟨contents, mode⟩ | _
      · rw [hentry] at henter
        cases henter
      · rw [hentry] at henter
        cases henter
      · rw [hentry] at henter
        rw [h _ hentry]
        exact ih henter

theorem locate {location : Location} (h : tree.KeepsDirectories after)
    (hlocate : tree.locate path = .ok location) : after.locate path = .ok location := by
  rw [FileTree.locate] at hlocate ⊢
  split_ifs at hlocate ⊢
  obtain ⟨above, henter, hrest⟩ := bind_eq_ok_iff.mp hlocate
  rw [h.enter henter]
  exact hrest

end KeepsDirectories

theorem enter_append (start : Location) (front rest : List String) :
    tree.enter start (front ++ rest)
      = tree.enter start front >>= fun above ↦ tree.enter above rest := by
  induction front generalizing start with
  | nil => rfl
  | cons name front ih =>
    rw [List.cons_append, enter, enter]
    split_ifs
    · exact ih _
    · rfl
    · split
      · rfl
      · rfl
      · exact ih _

theorem enter_of_locate {path : Path} {location : Location}
    (hlocate : tree.locate path = .ok location) (hentry : tree.get? location = some .directory) :
    tree.enter [] path.steps = .ok location := by
  rw [locate] at hlocate
  split_ifs at hlocate
  obtain ⟨above, henter, hrest⟩ := bind_eq_ok_iff.mp hlocate
  rcases List.eq_nil_or_concat path.steps with hsteps | ⟨front, name, hsteps⟩
  · rw [hsteps] at hrest ⊢
    exact hrest
  · rw [List.concat_eq_append] at hsteps
    rw [hsteps, List.getLast?_concat] at hrest
    rw [hsteps, List.dropLast_concat] at henter
    rw [hsteps, enter_append, henter, ok_bind, enter]
    dsimp only at hrest
    split_ifs at hrest ⊢ with hback hlong
    · exact hrest
    · obtain rfl := Except.ok.inj hrest
      rw [hentry]
      rfl

theorem readText_of_free {path : Path} {location : Location}
    (hlocate : tree.locate path = .ok location) (hfree : tree.get? location = none) :
    tree.readText path = .error .notFound := by
  rw [readText, read, hlocate, ok_bind, hfree]
  rfl

/-! ## Writing a file -/

/-- A file can be put where a path ends with a name, and no directory stands. -/
theorem locateFile_eq_ok_iff {path : Path} {location : Location} :
    tree.locateFile path = .ok location ↔ tree.locate path = .ok location ∧
      path.ending = .none ∧ tree.get? location ≠ some .directory := by
  rw [locateFile, bind_eq_ok_iff]
  constructor
  · rintro ⟨found, hlocate, hfree⟩
    rcases hentry : tree.get? found with _ | ⟨contents, mode⟩ | _ <;> rw [hentry] at hfree
    case some.directory => cases hfree
    all_goals
      dsimp only at hfree
      split_ifs at hfree with hending
      obtain rfl := Except.ok.inj hfree
      exact ⟨hlocate, hending, by rw [hentry]; exact nofun⟩
  · rintro ⟨hlocate, hending, hfree⟩
    refine ⟨location, hlocate, ?_⟩
    rcases hentry : tree.get? location with _ | ⟨contents, mode⟩ | _
    · exact if_pos hending
    · exact if_pos hending
    · exact absurd hentry hfree

theorem ne_nil_of_free {location : Location} (h : tree.get? location ≠ some .directory) :
    location ≠ [] := by
  rintro rfl
  exact h rfl

theorem keepsDirectories_set {location : Location} (h : tree.get? location ≠ some .directory)
    (entry : FileEntry) : tree.KeepsDirectories (tree.set location entry) := by
  intro other hother
  rw [get?_set (ne_nil_of_free h), if_neg, hother]
  rintro rfl
  exact h hother

section Set

variable {path : Path} {location : Location} (h : tree.locateFile path = .ok location) (mode : Nat)

include h

theorem locateFile_set (contents : Bytes) :
    (tree.set location (.file contents mode)).locateFile path = .ok location := by
  obtain ⟨hlocate, hending, hfree⟩ := locateFile_eq_ok_iff.mp h
  refine locateFile_eq_ok_iff.mpr ⟨(keepsDirectories_set hfree _).locate hlocate, hending, ?_⟩
  rw [get?_set (ne_nil_of_free hfree), if_pos rfl]
  exact nofun

theorem readText_set (text : String) :
    (tree.set location (.file (Utf8.encodeString text) mode)).readText path = .ok text := by
  obtain ⟨hlocate, hending, hfree⟩ := locateFile_eq_ok_iff.mp h
  rw [readText, read, (keepsDirectories_set hfree _).locate hlocate, ok_bind,
    get?_set (ne_nil_of_free hfree), if_pos rfl]
  dsimp only
  rw [if_pos hending, pure_bind, Utf8.decodeString_encodeString]
  rfl

end Set

/-! ## Writing a file of a directory -/

/-- A file of a directory is written, where no directory was. -/
def Puts (tree : FileTree) (dir : Path) (name : String) (contents : Bytes) (after : FileTree) :
    Prop :=
  ∃ above mode, tree.enter [] dir.steps = .ok above ∧
    tree.locate (dir.child name) = .ok (above ++ [name]) ∧
    tree.get? (above ++ [name]) ≠ some .directory ∧
    after = tree.set (above ++ [name]) (.file contents mode)

theorem puts_of_locateFile {location : Location} (h : IsFileName name)
    (hfile : tree.locateFile (dir.child name) = .ok location) (contents : Bytes) (mode : Nat) :
    Puts tree dir name contents (tree.set location (.file contents mode)) := by
  obtain ⟨hlocate, -, hfree⟩ := locateFile_eq_ok_iff.mp hfile
  obtain ⟨above, henter, rfl⟩ := locate_child_eq_ok h hlocate
  exact ⟨above, mode, henter, hlocate, hfree, rfl⟩

theorem puts_of_replace {after : FileTree} {contents : Bytes} (h : IsFileName name)
    (hreplace : tree.replace (dir.child name) contents = .ok after) :
    Puts tree dir name contents after := by
  obtain ⟨location, hfile, hafter⟩ := bind_eq_ok_iff.mp hreplace
  obtain rfl := Except.ok.inj hafter
  exact puts_of_locateFile h hfile contents privateMode

theorem puts_of_write {after : FileTree} {contents : Bytes} (h : IsFileName name)
    (hwrite : tree.write (dir.child name) contents = .ok after) :
    Puts tree dir name contents after := by
  obtain ⟨location, hfile, hafter⟩ := bind_eq_ok_iff.mp hwrite
  split at hafter
  · obtain rfl := Except.ok.inj hafter
    exact puts_of_locateFile h hfile contents _
  · obtain rfl := Except.ok.inj hafter
    exact puts_of_locateFile h hfile contents publicMode

/-- In a directory that is there, a file can stand where one is read, or where none is found. -/
theorem exists_locateFile_child {above : Location} (h : IsFileName name)
    (henter : tree.enter [] dir.steps = .ok above)
    (hread : (∃ text, tree.readText (dir.child name) = .ok text) ∨
      tree.readText (dir.child name) = .error .notFound) :
    ∃ location, tree.locateFile (dir.child name) = .ok location := by
  rcases hlocate : tree.locate (dir.child name) with fault | location
  · -- A directory that is there leaves nothing but the name to be at fault.
    have hbad : fault = .badName := by
      rw [locate_child h, henter, ok_bind] at hlocate
      split_ifs at hlocate
      all_goals exact (Except.error.inj hlocate).symm
    have hfails : tree.readText (dir.child name) = .error .badName := by
      rw [readText, read, hlocate, hbad]
      rfl
    rw [hfails] at hread
    rcases hread with ⟨text, hread⟩ | hread <;> cases hread
  · refine ⟨location, locateFile_eq_ok_iff.mpr ⟨hlocate, Path.ending_child h, fun hentry ↦ ?_⟩⟩
    have hfails : tree.readText (dir.child name) = .error .isDirectory := by
      rw [readText, read, hlocate, ok_bind, hentry]
      rfl
    rw [hfails] at hread
    rcases hread with ⟨text, hread⟩ | hread <;> cases hread

theorem exists_replace_of_locateFile {path : Path} {location : Location}
    (h : tree.locateFile path = .ok location) (contents : Bytes) :
    ∃ after, tree.replace path contents = .ok after :=
  ⟨_, bind_eq_ok_iff.mpr ⟨location, h, rfl⟩⟩

/-- Only the permission bits depend on what stands there. -/
theorem exists_write_eq_set {path : Path} {location : Location}
    (h : tree.locateFile path = .ok location) (contents : Bytes) :
    ∃ mode, tree.write path contents = .ok (tree.set location (.file contents mode)) := by
  rw [write, h, ok_bind]
  split
  · exact ⟨_, rfl⟩
  · exact ⟨_, rfl⟩

theorem exists_write_of_locateFile {path : Path} {location : Location}
    (h : tree.locateFile path = .ok location) (contents : Bytes) :
    ∃ after, tree.write path contents = .ok after := by
  obtain ⟨mode, hwrite⟩ := exists_write_eq_set h contents
  exact ⟨_, hwrite⟩

namespace Puts

variable {after : FileTree} {contents : Bytes}

theorem keepsDirectories (h : Puts tree dir name contents after) : tree.KeepsDirectories after := by
  obtain ⟨above, mode, -, -, hfree, rfl⟩ := h
  exact keepsDirectories_set hfree _

theorem enter (h : Puts tree dir name contents after) :
    ∃ above, tree.enter [] dir.steps = .ok above ∧ after.enter [] dir.steps = .ok above := by
  obtain ⟨above, mode, henter, -⟩ := id h
  exact ⟨above, henter, h.keepsDirectories.enter henter⟩

theorem exists_get?_of_ne (h : Puts tree dir name contents after) :
    ∃ above, tree.enter [] dir.steps = .ok above ∧
      ∀ location ≠ above ++ [name], after.get? location = tree.get? location := by
  obtain ⟨above, mode, henter, -, -, rfl⟩ := h
  have hbelow : above ++ [name] ≠ [] := List.append_ne_nil_of_right_ne_nil _ (List.cons_ne_nil _ _)
  refine ⟨above, henter, fun location hne ↦ ?_⟩
  rw [get?_set hbelow, if_neg hne]

theorem readText {text : String} (hname : IsFileName name)
    (h : Puts tree dir name (Utf8.encodeString text) after) :
    after.readText (dir.child name) = .ok text := by
  obtain ⟨above, mode, -, hlocate, hfree, rfl⟩ := h
  exact readText_set (locateFile_eq_ok_iff.mpr ⟨hlocate, Path.ending_child hname, hfree⟩) mode text

theorem readText_of_ne {other : String} (hother : IsFileName other) (hne : other ≠ name)
    (h : Puts tree dir name contents after) :
    after.readText (dir.child other) = tree.readText (dir.child other) := by
  obtain ⟨above, henter, hafter⟩ := h.enter
  obtain ⟨above', mode, henter', -, -, rfl⟩ := h
  obtain rfl := Except.ok.inj (henter.symm.trans henter')
  have hbelow : above ++ [name] ≠ [] := List.append_ne_nil_of_right_ne_nil _ (List.cons_ne_nil _ _)
  rw [FileTree.readText, FileTree.readText, read, read,
    locate_child_congr hother (hafter.trans henter.symm)]
  rcases hlocate : tree.locate (dir.child other) with fault | location
  · rfl
  · obtain ⟨above', henter', rfl⟩ := locate_child_eq_ok hother hlocate
    obtain rfl := Except.ok.inj (henter.symm.trans henter')
    have hlocation : above ++ [other] ≠ above ++ [name] := fun heq ↦
      hne (List.singleton_injective (List.append_cancel_left heq))
    rw [ok_bind, ok_bind, get?_set hbelow, if_neg hlocation]

end Puts

/-! ## Trees that grow -/

/-- Every entry of a tree is in the other one. -/
def Extends (tree after : FileTree) : Prop :=
  ∀ location entry, tree.get? location = some entry → after.get? location = some entry

namespace Extends

variable {after last : FileTree} {path : Path}

theorem refl (tree : FileTree) : Extends tree tree := fun _ _ h ↦ h

theorem trans (h : Extends tree after) (h' : Extends after last) : Extends tree last :=
  fun location entry hentry ↦ h' location entry (h location entry hentry)

theorem keepsDirectories (h : Extends tree after) : tree.KeepsDirectories after :=
  fun location ↦ h location .directory

theorem readText {text : String} (h : Extends tree after)
    (hread : tree.readText path = .ok text) : after.readText path = .ok text := by
  obtain ⟨contents, hcontents, hrest⟩ := bind_eq_ok_iff.mp hread
  obtain ⟨location, hlocate, hentry⟩ := bind_eq_ok_iff.mp hcontents
  have hafter : after.read path = .ok contents := by
    rw [read, h.keepsDirectories.locate hlocate, ok_bind]
    rcases hfound : tree.get? location with _ | entry
    · rw [hfound] at hentry
      cases hentry
    · rw [hfound] at hentry
      rw [h location entry hfound]
      exact hentry
  rw [FileTree.readText, hafter]
  exact hrest

end Extends

theorem of_createDir_eq_ok {after : FileTree} {path : Path} (h : tree.createDir path = .ok after) :
    ∃ location, tree.locate path = .ok location ∧ after.get? location = some .directory ∧
      Extends tree after := by
  obtain ⟨location, hlocate, hrest⟩ := bind_eq_ok_iff.mp h
  refine ⟨location, hlocate, ?_⟩
  rcases hentry : tree.get? location with _ | ⟨contents, mode⟩ | _
  · rw [hentry] at hrest
    dsimp only at hrest
    split_ifs at hrest
    obtain rfl := Except.ok.inj hrest
    have hbelow : location ≠ [] := by
      rintro rfl
      cases hentry
    refine ⟨by rw [get?_set hbelow, if_pos rfl], fun other entry hother ↦ ?_⟩
    rw [get?_set hbelow, if_neg, hother]
    rintro rfl
    rw [hentry] at hother
    cases hother
  · rw [hentry] at hrest
    cases hrest
  · rw [hentry] at hrest
    obtain rfl := Except.ok.inj hrest
    exact ⟨hentry, .refl tree⟩

theorem createDir_again {after later : FileTree} {path : Path}
    (h : tree.createDir path = .ok after) (hkeeps : after.KeepsDirectories later) :
    later.createDir path = .ok later := by
  obtain ⟨location, hlocate, hentry, hextends⟩ := of_createDir_eq_ok h
  have hlater := hkeeps.locate (hextends.keepsDirectories.locate hlocate)
  rw [createDir, hlater, ok_bind, hkeeps location hentry]
  rfl

theorem run_change (update : FileTree → Except FileFault FileTree) (tree : FileTree) :
    (change update).run.run tree
      = match update tree with
        | .ok after => (.ok (), after)
        | .error fault => (.error fault, tree) := rfl

/-- A change that only adds to a tree, also when it fails. -/
def Change.Grows {α : Type} (x : Change α) : Prop := ∀ tree, Extends tree (x.run.run tree).2

namespace Change.Grows

variable {α β : Type}

theorem pure (a : α) : Grows (Pure.pure a : Change α) := Extends.refl

theorem throw (fault : FileFault) : Grows (MonadExcept.throw fault : Change α) := Extends.refl

theorem bind {x : Change α} {f : α → Change β} (hx : Grows x) (hf : ∀ a, Grows (f a)) :
    Grows (x >>= f) := by
  intro tree
  have hgrown := hx tree
  rw [ExceptT.run_bind, StateT.run_bind]
  rcases hrun : x.run.run tree with ⟨fault | a, after⟩
  · rw [hrun] at hgrown
    exact hgrown
  · rw [hrun] at hgrown
    exact hgrown.trans (hf a after)

theorem forM {items : List α} {f : α → Change PUnit} (hf : ∀ a, Grows (f a)) :
    Grows (items.forM f) := by
  induction items with
  | nil => exact .pure _
  | cons a items ih => exact .bind (hf a) fun _ ↦ ih

theorem createDir (path : Path) : Grows (change (·.createDir path)) := by
  intro tree
  rw [run_change]
  rcases hcreate : tree.createDir path with fault | after
  · exact .refl tree
  · exact (of_createDir_eq_ok hcreate).choose_spec.2.2

end Change.Grows

theorem grows_createDirs (path : Path) : Change.Grows (createDirs path) := by
  rw [createDirs]
  split_ifs
  · exact .throw _
  · exact .pure _
  · exact .bind (.forM fun _ ↦ .createDir _) fun _ ↦ .createDir path

/-- A change that changes nothing where it has been made before. -/
def Change.Lasts (x : Change PUnit) : Prop :=
  ∀ tree after, x.run.run tree = (.ok (), after) →
    ∀ later, after.KeepsDirectories later → x.run.run later = (.ok (), later)

namespace Change.Lasts

theorem throw (fault : FileFault) : Lasts (MonadExcept.throw fault) := by
  rintro tree after h
  cases h

theorem pure : Lasts (Pure.pure ()) := fun _ _ _ _ _ ↦ rfl

theorem bind {x y : Change PUnit} (hx : Lasts x) (hy : Lasts y) (hgrows : Grows y) :
    Lasts (x >>= fun _ ↦ y) := by
  intro tree last h later hkeeps
  rcases hfirst : x.run.run tree with ⟨fault | _, after⟩
  · rw [run_bind_error _ hfirst] at h
    cases h
  · rw [run_bind_ok _ hfirst] at h
    have hextends := hgrows after
    rw [h] at hextends
    have hagain := hx tree after hfirst later fun location hlocation ↦
      hkeeps location (hextends.keepsDirectories location hlocation)
    rw [run_bind_ok _ hagain]
    exact hy after last h later hkeeps

theorem forM {α : Type} {items : List α} {f : α → Change PUnit} (hf : ∀ a, Lasts (f a))
    (hgrows : ∀ a, Grows (f a)) : Lasts (items.forM f) := by
  induction items with
  | nil => exact .pure
  | cons a items ih => exact .bind (hf a) ih (.forM hgrows)

theorem createDir (path : Path) : Lasts (change (·.createDir path)) := by
  intro tree after h later hkeeps
  rw [run_change] at h ⊢
  rcases hcreate : tree.createDir path with fault | created
  · rw [hcreate] at h
    cases h
  · rw [hcreate] at h
    obtain rfl := (Prod.mk.inj h).2
    rw [createDir_again hcreate hkeeps]

end Change.Lasts

/-- Directories that were created stay, as long as nothing removes them. -/
theorem lasts_createDirs (path : Path) : Change.Lasts (createDirs path) := by
  rw [createDirs]
  split_ifs
  · exact .throw _
  · exact .pure
  · exact .bind (.forM (fun _ ↦ .createDir _) fun _ ↦ .createDir _) (.createDir path)
      (.createDir path)

theorem isUsable_of_createDirs {after : FileTree}
    (h : (createDirs dir).run.run tree = (.ok (), after)) : dir.isUsable = true := by
  by_contra husable
  rw [Bool.not_eq_true] at husable
  rw [createDirs, if_pos (by rw [husable]; rfl)] at h
  cases h

theorem exists_enter_of_createDirs {after : FileTree}
    (h : (createDirs dir).run.run tree = (.ok (), after)) :
    ∃ above, after.enter [] dir.steps = .ok above := by
  rw [createDirs] at h
  split_ifs at h with husable hempty
  · cases h
  · refine ⟨[], ?_⟩
    rw [Path.steps, Path.parts, hempty]
    rfl
  -- The directory itself is created last.
  rcases hfront : ((List.range' 1 (dir.steps.length - 1)).forM fun count ↦
    change (·.createDir (.ofNames (dir.steps.take count)))).run.run tree with ⟨fault | _, front⟩
  · rw [run_bind_error _ hfront] at h
    cases h
  · rw [run_bind_ok _ hfront, run_change] at h
    rcases hcreate : front.createDir dir with fault | created
    · rw [hcreate] at h
      cases h
    · rw [hcreate] at h
      obtain rfl := (Prod.mk.inj h).2
      obtain ⟨location, hlocate, hentry, hextends⟩ := of_createDir_eq_ok hcreate
      exact ⟨location, enter_of_locate (hextends.keepsDirectories.locate hlocate) hentry⟩

end FileTree

end DualSeal

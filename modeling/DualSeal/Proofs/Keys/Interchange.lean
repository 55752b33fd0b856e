import DualSeal.Proofs.Keys.SharedKey

/-!
# Key stores are interchangeable

Calls to a key store, one after the other. A store that was empty at first answers each call as the
calls before it demand: a put is taken, and a look gives the text that was put last under this kind
and id, or says that there is none. The two tables do so for all ids. A directory does so for the
ids that can name a file, and every other id it refuses without doing anything
(`stores_interchangeable`).

That the files of a directory are as good as a table rests on their names. Each is the name of an
entry of the directory itself, no two keys share one, and none is the marker's, so that a put
changes nothing else in the whole tree.
-/

namespace DualSeal

/-! ## Ids for files -/

/-- An id of ASCII letters, digits, underscores and dashes. -/
structure KeyId.IsFileId (id : KeyId) : Prop where
  ne_empty : id.text ≠ ""
  chars : ∀ c ∈ id.text.toList, c.isAlphanum ∨ c = '_' ∨ c = '-'

theorem KeyId.fileFault?_eq_none_iff {id : KeyId} : id.fileFault? = none ↔ id.IsFileId := by
  have hchars : id.text.toList.all isFileChar = true
      ↔ ∀ c ∈ id.text.toList, c.isAlphanum ∨ c = '_' ∨ c = '-' := by
    simp [isFileChar, or_assoc]
  rw [fileFault?]
  split_ifs with hempty hall
  · exact iff_of_false not_false fun h ↦ h.ne_empty hempty
  · exact iff_of_true rfl ⟨hempty, hchars.mp hall⟩
  · exact iff_of_false not_false fun h ↦ hall (hchars.mpr h.chars)

/-- A key whose id is one for files, and whose file has a name and a path that are not too long. -/
structure KeyKind.FitsIn (dir : Path) (kind : KeyKind) (id : KeyId) : Prop where
  isFileId : id.IsFileId
  shortName : (kind.fileName id).utf8ByteSize ≤ FileTree.maxNameLength
  shortPath : (dir.child (kind.fileName id)).text.utf8ByteSize ≤ Path.maxLength

/-! ## Calls -/

/-- A call to a key store. -/
inductive StoreCall where
  | put (kind : KeyKind) (id : KeyId) (text : String)
  | get (kind : KeyKind) (id : KeyId)
  deriving DecidableEq

/-- What comes of a call: nothing or a text, unless it fails. -/
abbrev StoreAnswer := Except KeyStoreError (Option String)

namespace StoreCall

def key : StoreCall → KeyKind × KeyId
  | put kind id _ => (kind, id)
  | get kind id => (kind, id)

/-- The text that a call puts under a key, if it does. -/
def textUnder? (key : KeyKind × KeyId) : StoreCall → Option String
  | put kind id text => if (kind, id) = key then some text else none
  | get _ _ => none

/-- The text that was put last under a key. -/
def latest? (past : List StoreCall) (key : KeyKind × KeyId) : Option String :=
  past.reverse.findSome? (textUnder? key)

/-- What is found under a key after calls. -/
def foundAfter (past : List StoreCall) (kind : KeyKind) (id : KeyId) :
    Except KeyStoreError String :=
  match latest? past (kind, id) with
  | some text => .ok text
  | none => .error (.notFound id)

/-- What is answered to a call after other calls. -/
def answerAfter (past : List StoreCall) : StoreCall → StoreAnswer
  | put _ _ _ => .ok none
  | get kind id => (foundAfter past kind id).map some

/-- What is answered to calls that follow each other. -/
def answers (calls : List StoreCall) : List StoreAnswer :=
  calls.mapIdx fun k call ↦ call.answerAfter (calls.take k)

theorem latest?_concat (past : List StoreCall) (call : StoreCall) (key : KeyKind × KeyId) :
    latest? (past ++ [call]) key = (call.textUnder? key).or (latest? past key) := by
  rw [latest?, List.reverse_append, List.reverse_singleton, List.singleton_append,
    List.findSome?_cons]
  rcases call.textUnder? key with _ | text <;> rfl

theorem foundAfter_concat_get (past : List StoreCall) (kind' : KeyKind) (id' : KeyId)
    (kind : KeyKind) (id : KeyId) :
    foundAfter (past ++ [get kind' id']) kind id = foundAfter past kind id := by
  rw [foundAfter, latest?_concat]
  rfl

theorem foundAfter_concat_put (past : List StoreCall) (kind' : KeyKind) (id' : KeyId)
    (text : String) (kind : KeyKind) (id : KeyId) :
    foundAfter (past ++ [put kind' id' text]) kind id
      = if (kind, id) = (kind', id') then .ok text else foundAfter past kind id := by
  rw [foundAfter, latest?_concat, textUnder?]
  by_cases hsame : (kind, id) = (kind', id')
  · rw [if_pos hsame, if_pos hsame.symm]
    rfl
  · rw [if_neg hsame, if_neg fun h ↦ hsame h.symm]
    rfl

theorem foundAfter_cases (past : List StoreCall) (kind : KeyKind) (id : KeyId) :
    (∃ text, foundAfter past kind id = .ok text) ∨
      foundAfter past kind id = .error (.notFound id) := by
  rw [foundAfter]
  rcases latest? past (kind, id) with _ | text
  · exact .inr rfl
  · exact .inl ⟨text, rfl⟩

end StoreCall

namespace KeyStore

open StoreCall (foundAfter)

variable {σ : Type}

/-- A call to a store: what it answers, and the state that it leaves. -/
def perform (store : KeyStore σ) (state : σ) : StoreCall → StoreAnswer × σ
  | .put kind id text =>
    match store.put kind id text state with
    | .ok after => (.ok none, after)
    | .error error => (.error error, state)
  | .get kind id => ((store.get kind id state).map some, state)

/-- Calls to a store, one after the other: what it answers, and the state in the end. -/
def performAll (store : KeyStore σ) : List StoreCall → σ → List StoreAnswer × σ
  | [], state => ([], state)
  | call :: calls, state =>
    let (answer, between) := store.perform state call
    let (rest, after) := performAll store calls between
    (answer :: rest, after)

theorem fst_performAll_cons (store : KeyStore σ) (call : StoreCall) (calls : List StoreCall)
    (state : σ) :
    (store.performAll (call :: calls) state).1
      = (store.perform state call).1
        :: (store.performAll calls (store.perform state call).2).1 := rfl

/-! ## Stores that remember -/

/-- A sound state in which a store has, under the keys that matter, what calls have left there. -/
structure Remembers (store : KeyStore σ) (Sound : σ → Prop) (Fits : KeyKind → KeyId → Prop)
    (past : List StoreCall) (state : σ) : Prop where
  sound : Sound state
  get_eq : ∀ kind id, Fits kind id → store.get kind id state = foundAfter past kind id

section Remembers

variable {store : KeyStore σ} {Sound : σ → Prop} {Fits : KeyKind → KeyId → Prop}
  {past : List StoreCall} {state : σ}

/-- **One call** is answered from what came before it, and is remembered. -/
theorem Remembers.perform (hadmits : store.Admits Sound)
    (h : store.Remembers Sound Fits past state) {call : StoreCall}
    (hfits : Fits call.key.1 call.key.2) :
    (store.perform state call).1 = call.answerAfter past ∧
      store.Remembers Sound Fits (past ++ [call]) (store.perform state call).2 := by
  rcases call with ⟨kind, id, text⟩ | ⟨kind, id⟩
  · have hfound := StoreCall.foundAfter_cases past kind id
    rw [← h.get_eq kind id hfits] at hfound
    obtain ⟨after, hput⟩ := hadmits.exists_put h.sound hfound text
    rw [KeyStore.perform, hput]
    refine ⟨rfl, hadmits.sound_put h.sound hput, fun kind' id' hfits' ↦ ?_⟩
    rw [StoreCall.foundAfter_concat_put]
    split_ifs with hsame
    · obtain ⟨rfl, rfl⟩ := Prod.mk.inj hsame
      exact hadmits.isTable.get_put hput
    · rw [hadmits.isTable.get_put_of_ne hput hsame]
      exact h.get_eq kind' id' hfits'
  · refine ⟨?_, h.sound, fun kind' id' hfits' ↦ ?_⟩
    · rw [KeyStore.perform, h.get_eq kind id hfits, StoreCall.answerAfter]
    · rw [StoreCall.foundAfter_concat_get]
      exact h.get_eq kind' id' hfits'

/-- **All calls** are, by induction: each is in the past of those behind it. -/
theorem Remembers.performAll (hadmits : store.Admits Sound) {calls : List StoreCall}
    (h : store.Remembers Sound Fits past state)
    (hfits : ∀ call ∈ calls, Fits call.key.1 call.key.2) :
    (store.performAll calls state).1
      = calls.mapIdx fun k call ↦ call.answerAfter (past ++ calls.take k) := by
  induction calls generalizing past state with
  | nil => rfl
  | cons call calls ih =>
    obtain ⟨hcall, hcalls⟩ := List.forall_mem_cons.mp hfits
    obtain ⟨hanswer, hnext⟩ := h.perform hadmits hcall
    have hrest := ih hnext hcalls
    simp only [List.append_assoc, List.singleton_append] at hrest
    rw [fst_performAll_cons, hanswer, hrest, List.mapIdx_cons, List.take_zero, List.append_nil]
    rfl

theorem Remembers.answers (hadmits : store.Admits Sound)
    (h : store.Remembers Sound Fits [] state) {calls : List StoreCall}
    (hfits : ∀ call ∈ calls, Fits call.key.1 call.key.2) :
    (store.performAll calls state).1 = StoreCall.answers calls :=
  h.performAll hadmits hfits

end Remembers

/-! ## Empty stores -/

theorem memory_remembers : memory.Remembers (fun _ ↦ True) (fun _ _ ↦ True) [] .empty :=
  ⟨trivial, fun _ _ _ ↦ rfl⟩

theorem named_remembers : named.Remembers (fun _ ↦ True) (fun _ _ ↦ True) [] .empty :=
  ⟨trivial, fun _ _ _ ↦ rfl⟩

variable {dir : Path} {before tree : FileTree}

/-- A directory that was opened, and in which no file of a key stands. -/
structure IsEmptyDirectory (dir : Path) (tree : FileTree) : Prop where
  isOpen : ∃ before, (createDirectory dir).run.run before = (.ok (), tree)
  free : ∀ above, tree.enter [] dir.steps = .ok above → ∀ kind id,
    tree.get? (above ++ [KeyKind.fileName kind id]) = none

/-- The path of a key that fits can be looked up in a directory that was opened. -/
theorem isUsable_of_fitsIn (hopen : (createDirectory dir).run.run before = (.ok (), tree))
    {kind : KeyKind} {id : KeyId} (hfits : kind.FitsIn dir id) :
    (dir.child (kind.fileName id)).isUsable = true := by
  have hfault : id.fileFault? = none := KeyId.fileFault?_eq_none_iff.mpr hfits.isFileId
  refine Path.isUsable_child (FileTree.isUsable_of_createDirs (of_createDirectory hopen)) ?_
    hfits.shortPath
  rw [KeyKind.toList_fileName, List.mem_append, List.mem_cons, List.mem_append]
  rintro (hmem | heq | hmem | hmem)
  · exact absurd (KeyKind.isFileChar_of_fileFault? hfault hmem) (by decide)
  · exact absurd heq (by decide)
  · rcases kind <;> exact absurd hmem (by decide)
  · exact absurd hmem (by decide)

theorem directory_remembers (h : IsEmptyDirectory dir tree) :
    (directory dir).Remembers (fun tree ↦ ∃ above, tree.enter [] dir.steps = .ok above)
      (KeyKind.FitsIn dir) [] tree := by
  obtain ⟨before, hopen⟩ := h.isOpen
  obtain ⟨above, henter⟩ := FileTree.exists_enter_of_createDirs (of_createDirectory hopen)
  refine ⟨⟨above, henter⟩, fun kind id hfits ↦ ?_⟩
  have hfault : id.fileFault? = none := KeyId.fileFault?_eq_none_iff.mpr hfits.isFileId
  have hlocate := FileTree.locate_child_of_enter (KeyKind.isFileName_fileName hfault)
    (isUsable_of_fitsIn hopen hfits) hfits.shortName henter
  rw [directory_get_of_fileFault? hfault,
    FileTree.readText_of_free hlocate (h.free above henter kind id)]
  rfl

/-! ## Names and places -/

/-- An id that is none for files is refused, and nothing is done. -/
theorem directory_perform_of_not_isFileId {call : StoreCall} (h : ¬ call.key.2.IsFileId) :
    ∃ fault, ∀ tree, (directory dir).perform tree call = (.error (.invalidKeyId fault), tree) := by
  rw [← KeyId.fileFault?_eq_none_iff] at h
  obtain ⟨fault, hfault⟩ := Option.ne_none_iff_exists'.mp h
  refine ⟨fault, fun tree ↦ ?_⟩
  rcases call with ⟨kind, id, text⟩ | ⟨kind, id⟩
  · dsimp only [StoreCall.key] at hfault
    rw [perform, directory_put_of_fault hfault]
  · dsimp only [StoreCall.key] at hfault
    rw [perform, directory_get_of_fault hfault]
    rfl

end KeyStore

namespace KeyKind

/-- The path of a key leads through the directory and on to one name, which is no other key's and
not the marker's. -/
structure IsOwnPath (dir : Path) (kind : KeyKind) (id : KeyId) (path : Path) : Prop where
  isFileName : IsFileName (kind.fileName id)
  steps : path.steps = dir.steps ++ [kind.fileName id]
  ending : path.ending = .none
  ne_marker : path.steps ≠ (SharedKey.markerPath dir).steps
  ne_other : ∀ kind' id' path', kind'.path dir id' = .ok path' → path'.steps = path.steps →
    (kind', id') = (kind, id)

theorem isOwnPath_of_path {dir path : Path} {kind : KeyKind} {id : KeyId}
    (h : kind.path dir id = .ok path) : IsOwnPath dir kind id path := by
  obtain ⟨hfault, rfl⟩ := path_eq_ok_iff.mp h
  have hname : IsFileName (kind.fileName id) := isFileName_fileName hfault
  have hsteps : (dir.child (kind.fileName id)).steps = dir.steps ++ [kind.fileName id] :=
    Path.steps_child hname
  refine ⟨hname, hsteps, Path.ending_child hname, fun heq ↦ ?_, ?_⟩
  · rw [hsteps, SharedKey.markerPath, Path.steps_child SharedKey.isFileName_markerName] at heq
    exact SharedKey.markerName_ne_fileName kind id
      (List.singleton_injective (List.append_cancel_left heq)).symm
  · intro kind' id' path' hpath' heq
    obtain ⟨hfault', rfl⟩ := path_eq_ok_iff.mp hpath'
    rw [hsteps, Path.steps_child (isFileName_fileName hfault')] at heq
    exact fileName_inj hfault' hfault (List.singleton_injective (List.append_cancel_left heq))

end KeyKind

namespace KeyStore

/-- **Key stores are interchangeable.** To calls for keys that fit into a directory, the two tables
and the directory give the same answers, all empty at first: what was put last, or that there is
nothing. A call for an id that is none for files the directory refuses, whatever is in it, and does
nothing. The path that it uses for a key is that of an entry of its own, the key's alone and not the
marker's, and a put changes this entry and nothing else in the tree. -/
theorem stores_interchangeable (dir : Path) :
    (∀ tree, IsEmptyDirectory dir tree → ∀ calls : List StoreCall,
      (∀ call ∈ calls, KeyKind.FitsIn dir call.key.1 call.key.2) →
      (memory.performAll calls .empty).1 = StoreCall.answers calls ∧
      (named.performAll calls .empty).1 = StoreCall.answers calls ∧
      ((directory dir).performAll calls tree).1 = StoreCall.answers calls) ∧
    (∀ call : StoreCall, ¬ call.key.2.IsFileId → ∃ fault, ∀ tree,
      (directory dir).perform tree call = (.error (.invalidKeyId fault), tree)) ∧
    (∀ (kind : KeyKind) (id : KeyId) (path : Path), kind.path dir id = .ok path →
      kind.IsOwnPath dir id path) ∧
    ∀ (kind : KeyKind) (id : KeyId) (text : String) (tree after : FileTree),
      (directory dir).put kind id text tree = .ok after →
      ∃ above, tree.enter [] dir.steps = .ok above ∧
        ∀ location ≠ above ++ [kind.fileName id], after.get? location = tree.get? location := by
  refine ⟨fun tree hempty calls hfits ↦ ⟨?_, ?_, ?_⟩, fun call ↦
    directory_perform_of_not_isFileId, fun kind id path ↦ KeyKind.isOwnPath_of_path, ?_⟩
  · exact memory_remembers.answers memory_admits fun _ _ ↦ trivial
  · exact named_remembers.answers named_admits fun _ _ ↦ trivial
  · exact (directory_remembers hempty).answers (directory_admits dir) hfits
  · intro kind id text tree after hput
    exact (puts_of_directory_put hput).2.exists_get?_of_ne

section Overwritten

/-- A directory, and nothing in it. -/
def emptyKeys : FileTree := ⟨[(["keys"], .directory)]⟩

theorem isEmptyDirectory_emptyKeys : IsEmptyDirectory ⟨"keys"⟩ emptyKeys where
  isOpen := ⟨.empty, by rfl⟩
  free := by
    intro above henter kind id
    have hkeys : emptyKeys.enter [] (Path.steps ⟨"keys"⟩) = .ok ["keys"] := by rfl
    obtain rfl := Except.ok.inj (hkeys.symm.trans henter)
    rfl

theorem fitsIn_keys (kind : KeyKind) : kind.FitsIn ⟨"keys"⟩ ⟨"cafe"⟩ where
  isFileId := KeyId.fileFault?_eq_none_iff.mp (by decide +kernel)
  shortName := by cases kind <;> decide +kernel
  shortPath := by cases kind <;> decide +kernel

/-- A key that is put twice, looked up in between, and is not there as a private one; and an id that
would lead out of the directory. -/
theorem stores_interchangeable_overwritten :
    (let calls : List StoreCall :=
      [.put .pub ⟨"cafe"⟩ "old", .get .pub ⟨"cafe"⟩, .get .priv ⟨"cafe"⟩,
        .put .pub ⟨"cafe"⟩ "new", .get .pub ⟨"cafe"⟩]
    let expected : List StoreAnswer :=
      [.ok none, .ok (some "old"), .error (.notFound ⟨"cafe"⟩), .ok none, .ok (some "new")]
    (memory.performAll calls .empty).1 = expected ∧
      (named.performAll calls .empty).1 = expected ∧
      ((directory ⟨"keys"⟩).performAll calls emptyKeys).1 = expected) ∧
    (∃ fault, (directory ⟨"keys"⟩).perform emptyKeys (.put .pub ⟨"../cafe"⟩ "new")
      = (.error (.invalidKeyId fault), emptyKeys)) ∧
    KeyKind.pub.IsOwnPath ⟨"keys"⟩ ⟨"cafe"⟩ ⟨"keys/cafe.pub.pem"⟩ ∧
    ∃ after, (directory ⟨"keys"⟩).put .pub ⟨"cafe"⟩ "new" emptyKeys = .ok after ∧
      after.get? ["keys"] = emptyKeys.get? ["keys"] := by
  obtain ⟨hanswers, hrefused, hpath, hput⟩ := stores_interchangeable ⟨"keys"⟩
  refine ⟨hanswers emptyKeys isEmptyDirectory_emptyKeys _ ?_, ?_, hpath _ _ _ (by rfl), ?_⟩
  · simp only [List.forall_mem_cons, List.not_mem_nil, false_imp_iff, implies_true, and_true]
    exact ⟨fitsIn_keys _, fitsIn_keys _, fitsIn_keys _, fitsIn_keys _, fitsIn_keys _⟩
  · have hpoint : ¬ (KeyId.mk "../cafe").IsFileId := fun h ↦
      absurd (h.chars '.' (by decide)) (by decide)
    obtain ⟨fault, hfault⟩ := hrefused (.put .pub ⟨"../cafe"⟩ "new") hpoint
    exact ⟨fault, hfault emptyKeys⟩
  · have hmissing : (directory ⟨"keys"⟩).get .pub ⟨"cafe"⟩ emptyKeys
        = .error (.notFound ⟨"cafe"⟩) :=
      (directory_remembers isEmptyDirectory_emptyKeys).get_eq _ _ (fitsIn_keys .pub)
    obtain ⟨after, hafter⟩ :=
      (directory_admits ⟨"keys"⟩).exists_put ⟨["keys"], by rfl⟩ (.inr hmissing) "new"
    obtain ⟨above, -, hothers⟩ := hput .pub ⟨"cafe"⟩ "new" emptyKeys after hafter
    refine ⟨after, hafter, hothers ["keys"] fun heq ↦ ?_⟩
    have hlast := congrArg List.getLast? heq
    rw [List.getLast?_concat] at hlast
    exact absurd (Option.some.inj hlast) (by decide)

end Overwritten

end KeyStore

end DualSeal

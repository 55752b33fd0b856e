import DualSeal.Keys.Store.Directory
import DualSeal.Keys.Store.Memory
import DualSeal.Proofs.Files.Directory
import DualSeal.Proofs.Keys.KeyId

/-!
# Key stores are tables

What is put into a store is found there under its kind and id, and everything else stays as it was
(`KeyStore.IsTable`). The three stores have this. In a directory it rests on the names of the files:
no two keys share one, and none leads elsewhere. What can be looked up in a store can be written as
well (`KeyStore.Admits`, `KeyStore.Serves`), in a directory as long as it is there.
-/

namespace DualSeal

/-- A store in which a put changes the one text that it is about, to what was put. -/
structure KeyStore.IsTable {σ : Type} (store : KeyStore σ) : Prop where
  get_put : ∀ {kind id text before after},
    store.put kind id text before = .ok after → store.get kind id after = .ok text
  get_put_of_ne : ∀ {kind id text before after kind' id'},
    store.put kind id text before = .ok after → (kind', id') ≠ (kind, id) →
    store.get kind' id' after = store.get kind' id' before

/-! ## Tables -/

namespace KeyStore

theorem memory_isTable : memory.IsTable where
  get_put := by
    intro kind id text before after hput
    obtain rfl := Except.ok.inj hput
    dsimp only [memory]
    rw [TextTable.get?_insert, if_pos rfl]
  get_put_of_ne := by
    intro kind id text before after kind' id' hput hne
    obtain rfl := Except.ok.inj hput
    dsimp only [memory]
    rw [TextTable.get?_insert, if_neg hne]

end KeyStore

/-- What stands before the first occurrence of a character, and what stands behind it. -/
theorem eq_of_append_cons_eq {c : Char} {front front' back back' : List Char} (h : c ∉ front)
    (h' : c ∉ front') (heq : front ++ c :: back = front' ++ c :: back') :
    front = front' ∧ back = back' := by
  induction front generalizing front' with
  | nil =>
    cases front' with
    | nil => exact ⟨rfl, (List.cons.inj heq).2⟩
    | cons d rest => exact absurd (List.cons.inj heq).1 (List.ne_of_not_mem_cons h')
  | cons d rest ih =>
    cases front' with
    | nil => exact absurd (List.cons.inj heq).1.symm (List.ne_of_not_mem_cons h)
    | cons d' rest' =>
      obtain ⟨rfl, hrest⟩ := List.cons.inj heq
      obtain ⟨rfl, hback⟩ := ih (List.not_mem_of_not_mem_cons h) (List.not_mem_of_not_mem_cons h')
        hrest
      exact ⟨rfl, hback⟩

namespace KeyKind

theorem word_injective {kind kind' : KeyKind} (h : kind.word = kind'.word) : kind = kind' := by
  cases kind <;> cases kind' <;> simp [word] at h ⊢

theorem notMem_word {kind : KeyKind} {c : Char} (h : c = ':' ∨ c = '.' ∨ c = '/') :
    c ∉ kind.word.toList := by
  cases kind
  all_goals
    rcases h with rfl | rfl | rfl
    all_goals decide

/-- Different keys have different names in a table of strings: the word ends with the colon. -/
theorem tableName_inj {kind kind' : KeyKind} {id id' : KeyId}
    (h : kind.tableName id = kind'.tableName id') : (kind, id) = (kind', id') := by
  have hlists := congrArg String.toList h
  rw [tableName, tableName, String.toList_append, String.toList_append, String.toList_append,
    String.toList_append, List.append_assoc, List.append_assoc] at hlists
  obtain ⟨hword, htext⟩ := eq_of_append_cons_eq (notMem_word (.inl rfl)) (notMem_word (.inl rfl))
    hlists
  have hkind := word_injective (String.toList_injective hword)
  have hid : id = id' := congrArg KeyId.mk (String.toList_injective htext)
  rw [hkind, hid]

end KeyKind

theorem KeyStore.named_isTable : named.IsTable where
  get_put := by
    intro kind id text before after hput
    obtain rfl := Except.ok.inj hput
    dsimp only [named]
    rw [TextTable.get?_insert, if_pos rfl]
  get_put_of_ne := by
    intro kind id text before after kind' id' hput hne
    obtain rfl := Except.ok.inj hput
    dsimp only [named]
    rw [TextTable.get?_insert, if_neg fun h ↦ hne (KeyKind.tableName_inj h)]

/-! ## Directories -/

theorem KeyId.fileFault?_fingerprint (key : Bytes) : (fingerprint key).fileFault? = none := by
  have hdigits : ∀ n < 16, isFileChar (Hex.digit n) = true := by decide
  have hall : (fingerprint key).text.toList.all isFileChar = true := by
    refine List.all_eq_true.mpr fun c hc ↦ ?_
    obtain ⟨n, hn, rfl⟩ := eq_digit_of_mem_fingerprint hc
    exact hdigits n hn
  have hne : (fingerprint key).text ≠ "" := by
    intro hempty
    have hlength := length_fingerprint key
    rw [hempty] at hlength
    cases hlength
  rw [fileFault?, if_neg hne, if_pos hall]

namespace KeyKind

variable {kind kind' : KeyKind} {id id' : KeyId}

theorem isFileChar_of_fileFault? (h : id.fileFault? = none) {c : Char} (hc : c ∈ id.text.toList) :
    KeyId.isFileChar c = true := by
  rw [KeyId.fileFault?] at h
  split_ifs at h with hempty hall
  exact List.all_eq_true.mp hall c hc

theorem toList_ne_nil_of_fileFault? (h : id.fileFault? = none) : id.text.toList ≠ [] := by
  rw [KeyId.fileFault?] at h
  split_ifs at h with hempty hall
  rwa [ne_eq, String.toList_eq_nil_iff]

theorem toList_fileName (kind : KeyKind) (id : KeyId) :
    (kind.fileName id).toList = id.text.toList ++ '.' :: (kind.word.toList ++ ".pem".toList) := by
  rw [fileName, String.toList_append, String.toList_append, String.toList_append]
  simp

theorem isFileName_fileName (h : id.fileFault? = none) : IsFileName (kind.fileName id) := by
  have hlong : 4 < (kind.fileName id).toList.length := by
    rw [toList_fileName, List.length_append, List.length_cons, List.length_append]
    have hpem : ".pem".toList.length = 4 := rfl
    omega
  have hshort : ∀ name : String, name.toList.length ≤ 4 → kind.fileName id ≠ name := by
    rintro name hname rfl
    exact absurd hlong (Nat.not_lt_of_le hname)
  refine ⟨hshort _ (by decide), hshort _ (by decide), hshort _ (by decide), ?_⟩
  rw [toList_fileName, List.mem_append, List.mem_cons, List.mem_append]
  rintro (hmem | heq | hmem | hmem)
  · exact absurd (isFileChar_of_fileFault? h hmem) (by decide)
  · exact absurd heq (by decide)
  · exact notMem_word (.inr (.inr rfl)) hmem
  · exact absurd hmem (by decide)

/-- Different keys have different files: the id ends with the first point. -/
theorem fileName_inj (h : id.fileFault? = none) (h' : id'.fileFault? = none)
    (heq : kind.fileName id = kind'.fileName id') : (kind, id) = (kind', id') := by
  have hpoint : ∀ {id : KeyId}, id.fileFault? = none → '.' ∉ id.text.toList := fun h hmem ↦
    absurd (isFileChar_of_fileFault? h hmem) (by decide)
  have hlists := congrArg String.toList heq
  rw [toList_fileName, toList_fileName] at hlists
  obtain ⟨htext, hrest⟩ := eq_of_append_cons_eq (hpoint h) (hpoint h') hlists
  have hkind := word_injective (String.toList_injective (List.append_cancel_right hrest))
  have hid : id = id' := congrArg KeyId.mk (String.toList_injective htext)
  rw [hkind, hid]

theorem path_eq_ok_iff {dir path : Path} :
    kind.path dir id = .ok path ↔ id.fileFault? = none ∧ path = dir.child (kind.fileName id) := by
  rw [KeyKind.path]
  cases hfault : id.fileFault? with
  | some fault => exact ⟨nofun, nofun⟩
  | none => exact ⟨fun h ↦ ⟨rfl, (Except.ok.inj h).symm⟩, fun h ↦ congrArg Except.ok h.2.symm⟩

end KeyKind

namespace KeyStore

/-- A put writes the file of its key, and the id can name one. -/
theorem puts_of_directory_put {dir : Path} {kind : KeyKind} {id : KeyId} {text : String}
    {before after : FileTree} (h : (directory dir).put kind id text before = .ok after) :
    id.fileFault? = none ∧
      before.Puts dir (kind.fileName id) (Utf8.encodeString text) after := by
  obtain ⟨path, hpath, hput⟩ := bind_eq_ok_iff.mp h
  obtain ⟨hfault, rfl⟩ := KeyKind.path_eq_ok_iff.mp hpath
  exact ⟨hfault, FileTree.puts_of_replace (KeyKind.isFileName_fileName hfault)
    (mapError_eq_ok_iff.mp hput)⟩

theorem directory_get_of_fileFault? {dir : Path} {kind : KeyKind} {id : KeyId} {tree : FileTree}
    (h : id.fileFault? = none) :
    (directory dir).get kind id tree
      = match tree.readText (dir.child (kind.fileName id)) with
        | .ok text => .ok text
        | .error .notFound => .error (.notFound id)
        | .error fault => .error (.storage fault) := by
  dsimp only [directory]
  rw [KeyKind.path_eq_ok_iff.mpr ⟨h, rfl⟩, ok_bind]
  rcases tree.readText (dir.child (kind.fileName id)) with fault | text
  · rcases fault with _ | _ | _ | _ | _ <;> rfl
  · rfl

theorem directory_get_of_puts {dir : Path} {kind : KeyKind} {id : KeyId} {name : String}
    {contents : Bytes} {before after : FileTree} (h : before.Puts dir name contents after)
    (hother : id.fileFault? = none → kind.fileName id ≠ name) :
    (directory dir).get kind id after = (directory dir).get kind id before := by
  dsimp only [directory]
  rcases hpath : kind.path dir id with error | path
  · rfl
  · obtain ⟨hfault, rfl⟩ := KeyKind.path_eq_ok_iff.mp hpath
    rw [ok_bind, ok_bind, h.readText_of_ne (KeyKind.isFileName_fileName hfault) (hother hfault)]

theorem directory_get_of_extends {dir : Path} {kind : KeyKind} {id : KeyId} {text : String}
    {before after : FileTree} (h : before.Extends after)
    (hget : (directory dir).get kind id before = .ok text) :
    (directory dir).get kind id after = .ok text := by
  obtain ⟨path, hpath, hread⟩ := bind_eq_ok_iff.mp hget
  have hafter := h.readText (mapError_eq_ok_iff.mp hread)
  exact bind_eq_ok_iff.mpr ⟨path, hpath, mapError_eq_ok_iff.mpr hafter⟩

theorem directory_isTable (dir : Path) : (directory dir).IsTable where
  get_put := by
    intro kind id text before after hput
    obtain ⟨hfault, hputs⟩ := puts_of_directory_put hput
    rw [directory_get_of_fileFault? hfault,
      hputs.readText (KeyKind.isFileName_fileName hfault)]
  get_put_of_ne := by
    intro kind id text before after kind' id' hput hne
    obtain ⟨hfault, hputs⟩ := puts_of_directory_put hput
    exact directory_get_of_puts hputs fun hfault' heq ↦
      hne (KeyKind.fileName_inj hfault' hfault heq)

/-! ## Stores that take texts -/

/-- In the states in which it is sound, a store takes texts under every key that it can look up:
one that it has a text under, or none. -/
structure Admits {σ : Type} (store : KeyStore σ) (Sound : σ → Prop) : Prop where
  isTable : store.IsTable
  sound_put : ∀ {kind id text before after}, Sound before →
    store.put kind id text before = .ok after → Sound after
  exists_put : ∀ {kind id before}, Sound before →
    ((∃ text, store.get kind id before = .ok text) ∨
      store.get kind id before = .error (.notFound id)) →
    ∀ text, ∃ after, store.put kind id text before = .ok after

theorem memory_admits : memory.Admits fun _ ↦ True where
  isTable := memory_isTable
  sound_put _ _ := trivial
  exists_put _ _ _ := ⟨_, rfl⟩

theorem named_admits : named.Admits fun _ ↦ True where
  isTable := named_isTable
  sound_put _ _ := trivial
  exists_put _ _ _ := ⟨_, rfl⟩

theorem directory_get_of_fault {dir : Path} {kind : KeyKind} {id : KeyId} {fault : KeyIdFault}
    (h : id.fileFault? = some fault) (tree : FileTree) :
    (directory dir).get kind id tree = .error (.invalidKeyId fault) := by
  dsimp only [directory]
  rw [KeyKind.path, h]
  rfl

theorem directory_put_of_fault {dir : Path} {kind : KeyKind} {id : KeyId} {fault : KeyIdFault}
    (h : id.fileFault? = some fault) (text : String) (tree : FileTree) :
    (directory dir).put kind id text tree = .error (.invalidKeyId fault) := by
  dsimp only [directory]
  rw [KeyKind.path, h]
  rfl

/-- An id that a directory can look up could name a file, and that file can be read or is
missing. -/
theorem readText_of_directory_get {dir : Path} {kind : KeyKind} {id : KeyId} {tree : FileTree}
    (h : (∃ text, (directory dir).get kind id tree = .ok text) ∨
      (directory dir).get kind id tree = .error (.notFound id)) :
    id.fileFault? = none ∧
      ((∃ text, tree.readText (dir.child (kind.fileName id)) = .ok text) ∨
        tree.readText (dir.child (kind.fileName id)) = .error .notFound) := by
  rcases hfault : id.fileFault? with _ | fault
  · rw [directory_get_of_fileFault? hfault] at h
    rcases hread : tree.readText (dir.child (kind.fileName id)) with fault | text
    · rw [hread] at h
      rcases fault with _ | _ | _ | _ | _
      · exact ⟨rfl, .inr rfl⟩
      all_goals rcases h with ⟨_, h⟩ | h <;> cases h
    · exact ⟨rfl, .inl ⟨text, rfl⟩⟩
  · rw [directory_get_of_fault hfault] at h
    rcases h with ⟨_, h⟩ | h <;> cases h

theorem exists_directory_put {dir : Path} {kind : KeyKind} {id : KeyId} {tree : FileTree}
    {above : Location} (hfault : id.fileFault? = none)
    (henter : tree.enter [] dir.steps = .ok above)
    (hread : (∃ text, tree.readText (dir.child (kind.fileName id)) = .ok text) ∨
      tree.readText (dir.child (kind.fileName id)) = .error .notFound) (text : String) :
    ∃ after, (directory dir).put kind id text tree = .ok after := by
  obtain ⟨location, hfile⟩ :=
    FileTree.exists_locateFile_child (KeyKind.isFileName_fileName hfault) henter hread
  obtain ⟨after, hreplace⟩ := FileTree.exists_replace_of_locateFile hfile (Utf8.encodeString text)
  refine ⟨after, bind_eq_ok_iff.mpr ⟨_, KeyKind.path_eq_ok_iff.mpr ⟨hfault, rfl⟩, ?_⟩⟩
  exact mapError_eq_ok_iff.mpr hreplace

theorem of_createDirectory {dir : Path} {before tree : FileTree}
    (h : (createDirectory dir).run.run before = (.ok (), tree)) :
    (FileTree.createDirs dir).run.run before = (.ok (), tree) := by
  rcases hdirs : (FileTree.createDirs dir).run.run before with ⟨outcome, created⟩
  rw [createDirectory, run_adapt _ hdirs] at h
  obtain ⟨houtcome, rfl⟩ := Prod.mk.inj h
  rw [mapError_eq_ok_iff.mp houtcome]

/-- A directory takes texts as long as it is there. -/
theorem directory_admits (dir : Path) :
    (directory dir).Admits fun tree ↦ ∃ above, tree.enter [] dir.steps = .ok above where
  isTable := directory_isTable dir
  sound_put := by
    intro kind id text before after _ hput
    obtain ⟨above, -, hafter⟩ := (puts_of_directory_put hput).2.enter
    exact ⟨above, hafter⟩
  exists_put := by
    rintro kind id before ⟨above, henter⟩ hget text
    obtain ⟨hfault, hread⟩ := readText_of_directory_get hget
    exact exists_directory_put hfault henter hread text

/-! ## Stores that serve -/

/-- An id that a store can look up: there is a text under it, or none. -/
def Accepts {σ : Type} (store : KeyStore σ) (state : σ) (id : KeyId) : Prop :=
  (∃ text, store.get .pub id state = .ok text) ∨ store.get .pub id state = .error (.notFound id)

/-- A store that takes public keys in the states in which it is sound, under every id that it can
look up and under none that it refuses. -/
structure Serves {σ : Type} (store : KeyStore σ) (Sound : σ → Prop) : Prop where
  isTable : store.IsTable
  sound_put : ∀ {kind id text before after}, Sound before →
    store.put kind id text before = .ok after → Sound after
  exists_put : ∀ {id before}, Sound before → store.Accepts before id → ∀ text,
    ∃ after, store.put .pub id text before = .ok after
  put_ne_ok : ∀ {id before fault}, store.get .pub id before = .error (.invalidKeyId fault) →
    ∀ text after, store.put .pub id text before ≠ .ok after

/-- A store that takes texts serves, if it does not take one under an id that it refuses to look
up. -/
theorem Admits.serves {σ : Type} {store : KeyStore σ} {Sound : σ → Prop} (h : store.Admits Sound)
    (hrefuses : ∀ {id before fault}, store.get .pub id before = .error (.invalidKeyId fault) →
      ∀ text after, store.put .pub id text before ≠ .ok after) : store.Serves Sound where
  isTable := h.isTable
  sound_put := h.sound_put
  exists_put := h.exists_put
  put_ne_ok := hrefuses

theorem memory_serves : memory.Serves fun _ ↦ True := by
  refine memory_admits.serves fun {id before fault} hget ↦ ?_
  dsimp only [memory] at hget
  split at hget <;> cases hget

theorem named_serves : named.Serves fun _ ↦ True := by
  refine named_admits.serves fun {id before fault} hget ↦ ?_
  dsimp only [named] at hget
  split at hget <;> cases hget

theorem directory_serves (dir : Path) :
    (directory dir).Serves fun tree ↦ ∃ above, tree.enter [] dir.steps = .ok above := by
  refine (directory_admits dir).serves fun {id before fault} hget text after hput ↦ ?_
  rw [directory_get_of_fileFault? (puts_of_directory_put hput).1] at hget
  split at hget <;> cases hget

end KeyStore

end DualSeal

import DualSeal.Keys.SharedKey
import DualSeal.Proofs.Keys.Cache

/-!
# The shared key is kept

A server keeps its key in the directory of its key store, next to the keys that are registered with
it. Three kinds of files stand there: the marker, private keys and public keys. No key shares a file
with the marker, so that registering keys and starting again, in any order, never touch the marker
or the key that it records. Once a start without a configured key has succeeded, each later one
gives the same key pair and writes nothing (`shared_key_is_kept`); the first one succeeds in any
directory that could be opened and has nothing in the way (`exists_startIn_eq_ok`).
-/

namespace DualSeal

open KeyCache (keyPair)

/-! ## Markers -/

theorem Text.trim_eq_self {text : List Char} (h : ∀ c ∈ text, isBlank c = false) :
    trim text = text := by
  have hdrop : ∀ rest : List Char, (∀ c ∈ rest, isBlank c = false) →
      rest.dropWhile isBlank = rest := by
    intro rest hrest
    rcases rest with _ | ⟨c, rest⟩
    · rfl
    · exact List.dropWhile_cons_of_neg (Bool.eq_false_iff.mp (hrest c List.mem_cons_self))
  rw [trim, trimEnd, trimStart, hdrop text h, hdrop _ fun c hc ↦ h c (List.mem_reverse.mp hc),
    List.reverse_reverse]

namespace SharedKey

theorem markedId_text (pair : KeyPair) : markedId pair.id.text = pair.id := by
  have htrim : Text.trim pair.id.text.toList = pair.id.text.toList :=
    Text.trim_eq_self fun _ hc ↦ Envelope.isBlank_fingerprint hc
  rw [markedId, htrim, String.ofList_toList]

theorem isFileName_markerName : IsFileName markerName :=
  ⟨by decide, by decide, by decide, by decide⟩

/-- No key has the marker for its file: there is a point in the name of a key's file. -/
theorem markerName_ne_fileName (kind : KeyKind) (id : KeyId) : markerName ≠ kind.fileName id := by
  intro heq
  have hpoint : '.' ∈ (kind.fileName id).toList := by
    rw [KeyKind.toList_fileName]
    exact List.mem_append_right _ List.mem_cons_self
  rw [← heq] at hpoint
  exact absurd hpoint (by decide)

/-! ## Starts -/

/-- What comes of a start in the directory of the key store, and the files after it. -/
def startIn (dir : Path) (configured : Option KeyId) (fresh : KeyPair) (tree : FileTree) :
    Except SharedKeyError KeyPair × FileTree :=
  (start (.directory dir) dir configured fresh :
    ExceptT SharedKeyError (StateM FileTree) KeyPair).run.run tree

variable {dir : Path} {tree after : FileTree} {fresh pair : KeyPair}

theorem run_loadKeyPair {σ : Type} (store : KeyStore σ) (id : KeyId) (state : σ) :
    (KeyCache.loadKeyPair store id : ExceptT KeyCacheError (StateM σ) KeyPair).run.run state
      = (keyPair store state id, state) := by
  rw [KeyCache.loadKeyPair, run_bind_ok _ (run_getThe state)]
  rcases keyPair store state id with error | pair <;> rfl

theorem run_load (id : KeyId) :
    (load (.directory dir) id : ExceptT SharedKeyError (StateM FileTree) KeyPair).run.run tree
      = ((keyPair (.directory dir) tree id).mapError .keyCache, tree) := by
  rw [load, run_outcome_bind _ (run_loadKeyPair (.directory dir) id tree)]
  rcases keyPair (.directory dir) tree id with error | pair <;> rfl

theorem startIn_configured (id : KeyId) (fresh : KeyPair) (tree : FileTree) :
    startIn dir (some id) fresh tree
      = ((keyPair (.directory dir) tree id).mapError .keyCache, tree) :=
  run_load id

theorem startIn_none :
    startIn dir none fresh tree
      = match tree.readText (markerPath dir) with
        | .ok contents =>
          ((keyPair (.directory dir) tree (markedId contents)).mapError .keyCache, tree)
        | .error .notFound =>
          (adopt (.directory dir) dir fresh :
            ExceptT SharedKeyError (StateM FileTree) KeyPair).run.run tree
        | .error fault => (.error (.file fault), tree) := by
  rw [startIn, start, run_bind_ok _ (run_getThe tree)]
  rcases tree.readText (markerPath dir) with fault | contents
  · rcases fault with _ | _ | _ | _ | _ <;> rfl
  · exact run_load _

theorem run_put {σ : Type} (store : KeyStore σ) (kind : KeyKind) (id : KeyId) (text : String)
    (state : σ) :
    (KeyCache.put store kind id text : ExceptT KeyCacheError (StateM σ) Unit).run.run state
      = match store.put kind id text state with
        | .ok after => (.ok (), after)
        | .error error => (.error (.store error), state) := by
  rw [KeyCache.put, run_bind_ok _ (run_getThe state)]
  rcases store.put kind id text state with error | after <;> rfl

/-- A key pair is stored under its id, the private half first. -/
theorem run_storeKeyPair {σ : Type} (store : KeyStore σ) (pair : KeyPair) (state : σ) :
    (KeyCache.storeKeyPair store pair : ExceptT KeyCacheError (StateM σ) KeyId).run.run state
      = match store.put .priv pair.id pair.toPem state with
        | .error error => (.error (.store error), state)
        | .ok between =>
          match store.put .pub pair.id pair.publicKey.toPem between with
          | .error error => (.error (.store error), between)
          | .ok last => (.ok pair.id, last) := by
  have hpriv := run_put store .priv pair.id pair.toPem state
  rw [KeyCache.storeKeyPair]
  rcases hput : store.put .priv pair.id pair.toPem state with error | between
  · rw [hput] at hpriv
    rw [run_bind_error _ hpriv]
  rw [hput] at hpriv
  rw [run_bind_ok _ hpriv]
  have hpub := run_put store .pub pair.id pair.publicKey.toPem between
  dsimp only
  rcases hput' : store.put .pub pair.id pair.publicKey.toPem between with error | last
  · rw [hput'] at hpub
    rw [run_bind_error _ hpub]
  · rw [hput'] at hpub
    rw [run_bind_ok _ hpub]
    rfl

theorem run_mark (id : KeyId) :
    (mark dir id).run.run tree
      = match (FileTree.createDirs dir).run.run tree with
        | (.error fault, grown) => (.error fault, grown)
        | (.ok (), grown) =>
          match grown.write (markerPath dir) (Utf8.encodeString id.text) with
          | .ok after => (.ok (), after)
          | .error fault => (.error fault, grown) := by
  rw [mark]
  rcases hdirs : (FileTree.createDirs dir).run.run tree with ⟨fault | _, grown⟩
  · exact run_bind_error _ hdirs
  · exact (run_bind_ok _ hdirs).trans (FileTree.run_change _ grown)

theorem run_storeKeyPair_of_put {σ : Type} {store : KeyStore σ} {state between last : σ}
    (hpriv : store.put .priv pair.id pair.toPem state = .ok between)
    (hpub : store.put .pub pair.id pair.publicKey.toPem between = .ok last) :
    (KeyCache.storeKeyPair store pair : ExceptT KeyCacheError (StateM σ) KeyId).run.run state
      = (.ok pair.id, last) := by
  rw [run_storeKeyPair, hpriv]
  dsimp only
  rw [hpub]

theorem of_run_storeKeyPair_eq_ok {σ : Type} {store : KeyStore σ} {state last : σ} {id : KeyId}
    (h : (KeyCache.storeKeyPair store pair : ExceptT KeyCacheError (StateM σ) KeyId).run.run state
      = (.ok id, last)) :
    id = pair.id ∧ ∃ between, store.put .priv pair.id pair.toPem state = .ok between ∧
      store.put .pub pair.id pair.publicKey.toPem between = .ok last := by
  rw [run_storeKeyPair] at h
  rcases hpriv : store.put .priv pair.id pair.toPem state with error | between
  · rw [hpriv] at h
    cases h
  rw [hpriv] at h
  dsimp only at h
  rcases hpub : store.put .pub pair.id pair.publicKey.toPem between with error | stored
  · rw [hpub] at h
    cases h
  · rw [hpub] at h
    cases h
    exact ⟨rfl, between, rfl, hpub⟩

theorem of_run_mark_eq_ok {id : KeyId} (h : (mark dir id).run.run tree = (.ok (), after)) :
    ∃ grown, tree.Extends grown ∧
      grown.write (markerPath dir) (Utf8.encodeString id.text) = .ok after := by
  have hgrows := FileTree.grows_createDirs dir tree
  rw [run_mark] at h
  rcases hdirs : (FileTree.createDirs dir).run.run tree with ⟨fault | _, grown⟩
  · rw [hdirs] at h
    cases h
  rw [hdirs] at h hgrows
  dsimp only at h
  rcases hwrite : grown.write (markerPath dir) (Utf8.encodeString id.text) with fault | written
  · rw [hwrite] at h
    cases h
  · rw [hwrite] at h
    cases h
    exact ⟨grown, hgrows, hwrite⟩

theorem run_adopt_of_error {error : KeyCacheError} {stored : FileTree}
    (h : (KeyCache.storeKeyPair (.directory dir) fresh :
      ExceptT KeyCacheError (StateM FileTree) KeyId).run.run tree = (.error error, stored)) :
    (adopt (.directory dir) dir fresh :
      ExceptT SharedKeyError (StateM FileTree) KeyPair).run.run tree
      = (.error (.keyCache error), stored) := by
  rw [adopt, run_outcome_bind _ h]
  rfl

theorem run_adopt_of_ok {id : KeyId} {stored : FileTree}
    (h : (KeyCache.storeKeyPair (.directory dir) fresh :
      ExceptT KeyCacheError (StateM FileTree) KeyId).run.run tree = (.ok id, stored)) :
    (adopt (.directory dir) dir fresh :
      ExceptT SharedKeyError (StateM FileTree) KeyPair).run.run tree
      = match (mark dir id).run.run stored with
        | (.ok (), marked) => (.ok fresh, marked)
        | (.error fault, marked) => (.error (.file fault), marked) := by
  -- The change is run by applying it, whichever it is.
  have hrun : ∀ change : FileTree.Change Unit, change.run stored = change.run.run stored :=
    fun _ ↦ rfl
  rw [adopt, run_outcome_bind _ h]
  dsimp only
  rw [run_bind_ok _ (run_getThe stored), hrun]
  generalize (mark dir id).run.run stored = outcome
  obtain ⟨fault | _, marked⟩ := outcome
  · rfl
  · rfl

/-- What a new key pair leaves behind when it is adopted: its two files, and the marker last. -/
theorem of_run_adopt_eq_ok
    (h : (adopt (.directory dir) dir fresh :
      ExceptT SharedKeyError (StateM FileTree) KeyPair).run.run tree = (.ok pair, after)) :
    pair = fresh ∧ ∃ first second grown,
      (KeyStore.directory dir).put .priv fresh.id fresh.toPem tree = .ok first ∧
      (KeyStore.directory dir).put .pub fresh.id fresh.publicKey.toPem first = .ok second ∧
      second.Extends grown ∧
      grown.write (markerPath dir) (Utf8.encodeString fresh.id.text) = .ok after := by
  rcases hstore : (KeyCache.storeKeyPair (.directory dir) fresh :
    ExceptT KeyCacheError (StateM FileTree) KeyId).run.run tree with ⟨error | id, second⟩
  · rw [run_adopt_of_error hstore] at h
    cases h
  obtain ⟨rfl, first, hpriv, hpub⟩ := of_run_storeKeyPair_eq_ok hstore
  rw [run_adopt_of_ok hstore] at h
  rcases hmark : (mark dir fresh.id).run.run second with ⟨fault | _, marked⟩
  · rw [hmark] at h
    cases h
  · rw [hmark] at h
    cases h
    obtain ⟨grown, hgrown, hwrite⟩ := of_run_mark_eq_ok hmark
    exact ⟨rfl, first, second, grown, hpriv, hpub, hgrown, hwrite⟩

/-- In a directory that is there, a key pair can be stored where its files are missing. Other files
stay as they are. -/
theorem exists_run_storeKeyPair {above : Location} (henter : tree.enter [] dir.steps = .ok above)
    (hfree : ∀ kind, tree.readText (dir.child (KeyKind.fileName kind pair.id)) = .error .notFound) :
    ∃ stored, (KeyCache.storeKeyPair (.directory dir) pair :
        ExceptT KeyCacheError (StateM FileTree) KeyId).run.run tree = (.ok pair.id, stored) ∧
      tree.KeepsDirectories stored ∧
      stored.readText (markerPath dir) = tree.readText (markerPath dir) := by
  have hfault : pair.id.fileFault? = none := KeyId.fileFault?_fingerprint _
  obtain ⟨first, hpriv⟩ :=
    KeyStore.exists_directory_put hfault henter (.inr (hfree .priv)) pair.toPem
  obtain ⟨-, hputs⟩ := KeyStore.puts_of_directory_put hpriv
  have hother : KeyKind.pub.fileName pair.id ≠ KeyKind.priv.fileName pair.id := fun heq ↦
    absurd (Prod.mk.inj (KeyKind.fileName_inj hfault hfault heq)).1 (by decide)
  have hmissing := hputs.readText_of_ne (KeyKind.isFileName_fileName hfault) hother
  rw [hfree .pub] at hmissing
  obtain ⟨second, hpub⟩ := KeyStore.exists_directory_put hfault
    (hputs.keepsDirectories.enter henter) (.inr hmissing) pair.publicKey.toPem
  obtain ⟨-, hputs'⟩ := KeyStore.puts_of_directory_put hpub
  refine ⟨second, run_storeKeyPair_of_put hpriv hpub, fun location hlocation ↦
    hputs'.keepsDirectories location (hputs.keepsDirectories location hlocation), ?_⟩
  · rw [markerPath, hputs'.readText_of_ne isFileName_markerName (markerName_ne_fileName _ _),
      hputs.readText_of_ne isFileName_markerName (markerName_ne_fileName _ _)]

/-- In a directory that was created, a marker can be written where there is none. -/
theorem exists_run_mark {before created : FileTree} {above : Location} (id : KeyId)
    (hcreated : (FileTree.createDirs dir).run.run before = (.ok (), created))
    (hkeeps : created.KeepsDirectories tree) (henter : tree.enter [] dir.steps = .ok above)
    (hmissing : tree.readText (markerPath dir) = .error .notFound) :
    ∃ marked, (mark dir id).run.run tree = (.ok (), marked) := by
  obtain ⟨location, hfile⟩ :=
    FileTree.exists_locateFile_child isFileName_markerName henter (.inr hmissing)
  obtain ⟨marked, hwrite⟩ :=
    FileTree.exists_write_of_locateFile hfile (Utf8.encodeString id.text)
  refine ⟨marked, ?_⟩
  rw [run_mark, FileTree.lasts_createDirs dir before created hcreated tree hkeeps]
  dsimp only
  rw [markerPath, hwrite]

/-- **The first start.** In a directory that was opened, a start adopts the new key pair where
neither a marker nor a file of that key pair is in the way. -/
theorem exists_startIn_eq_ok {before : FileTree}
    (hopen : (KeyStore.createDirectory dir).run.run before = (.ok (), tree))
    (hmarker : tree.readText (markerPath dir) = .error .notFound)
    (hfree : ∀ kind,
      tree.readText (dir.child (KeyKind.fileName kind fresh.id)) = .error .notFound) :
    ∃ after, startIn dir none fresh tree = (.ok fresh, after) := by
  have hcreated := KeyStore.of_createDirectory hopen
  obtain ⟨above, henter⟩ := FileTree.exists_enter_of_createDirs hcreated
  obtain ⟨stored, hstore, hkeeps, hsame⟩ := exists_run_storeKeyPair henter hfree
  obtain ⟨marked, hmark⟩ :=
    exists_run_mark fresh.id hcreated hkeeps (hkeeps.enter henter) (hsame.trans hmarker)
  refine ⟨marked, ?_⟩
  rw [startIn_none, hmarker]
  dsimp only
  rw [run_adopt_of_ok hstore, hmark]

/-! ## A directory with a shared key -/

/-- The marker can be read, and records the id of a stored key pair. -/
structure Settled (dir : Path) (contents : String) (pair : KeyPair) (tree : FileTree) : Prop where
  marker : tree.readText (markerPath dir) = .ok contents
  stored : keyPair (.directory dir) tree (markedId contents) = .ok pair

variable {contents : String}

theorem Settled.startIn (h : Settled dir contents pair tree) (fresh : KeyPair) :
    startIn dir none fresh tree = (.ok pair, tree) := by
  rw [startIn_none, h.marker]
  dsimp only
  rw [h.stored]
  rfl

theorem keyPair_congr {σ : Type} {store : KeyStore σ} {state state' : σ} {id : KeyId}
    (h : store.get .priv id state' = store.get .priv id state) :
    keyPair store state' id = keyPair store state id := by
  rw [keyPair, keyPair, h]

/-- Where nothing but other files of the directory is written, the shared key stays. -/
theorem Settled.puts {kind : KeyKind} {id : KeyId} {text : String}
    (h : Settled dir contents pair tree)
    (hput : (KeyStore.directory dir).put kind id text tree = .ok after)
    (hother : (KeyKind.priv, markedId contents) ≠ (kind, id)) :
    Settled dir contents pair after where
  marker := by
    obtain ⟨-, hputs⟩ := KeyStore.puts_of_directory_put hput
    rw [markerPath, hputs.readText_of_ne isFileName_markerName (markerName_ne_fileName kind id)]
    exact h.marker
  stored := by
    rw [keyPair_congr ((KeyStore.directory_isTable dir).get_put_of_ne hput hother)]
    exact h.stored

theorem Settled.extends (h : Settled dir contents pair tree) (hgrown : tree.Extends after) :
    Settled dir contents pair after where
  marker := hgrown.readText h.marker
  stored := by
    obtain ⟨text, hget, hparse⟩ := bind_eq_ok_iff.mp h.stored
    have hafter := KeyStore.directory_get_of_extends hgrown (mapError_eq_ok_iff.mp hget)
    exact bind_eq_ok_iff.mpr ⟨text, mapError_eq_ok_iff.mpr hafter, hparse⟩

theorem keyPair_of_get {σ : Type} {store : KeyStore σ} {state : σ}
    (h : store.get .priv pair.id state = .ok pair.toPem) :
    keyPair store state pair.id = .ok pair := by
  refine bind_eq_ok_iff.mpr ⟨pair.toPem, mapError_eq_ok_iff.mpr h, ?_⟩
  exact KeyCache.parseKeyPair_eq_ok_iff.mpr ⟨KeyPair.ofPem_toPem pair, rfl⟩

/-- A new key pair that is adopted is the shared key from then on. -/
theorem settled_of_adopt
    (h : (adopt (.directory dir) dir fresh :
      ExceptT SharedKeyError (StateM FileTree) KeyPair).run.run tree = (.ok pair, after)) :
    Settled dir pair.id.text pair after := by
  obtain ⟨rfl, first, second, grown, hpriv, hpub, hgrown, hwrite⟩ := of_run_adopt_eq_ok h
  have htable := KeyStore.directory_isTable dir
  have hputs := FileTree.puts_of_write isFileName_markerName hwrite
  refine ⟨hputs.readText isFileName_markerName, ?_⟩
  rw [markedId_text]
  refine keyPair_of_get ?_
  -- The private file is there first, and nothing that is written after it is that file.
  have hfirst := htable.get_put hpriv
  have hsecond : (KeyStore.directory dir).get .priv pair.id second
      = (KeyStore.directory dir).get .priv pair.id first := htable.get_put_of_ne hpub nofun
  rw [KeyStore.directory_get_of_puts hputs fun _ heq ↦ markerName_ne_fileName _ _ heq.symm]
  exact KeyStore.directory_get_of_extends hgrown (hsecond.trans hfirst)

/-- A start without a configured key that succeeds leaves a shared key behind, the one that it
gives. -/
theorem exists_settled_of_startIn (h : startIn dir none fresh tree = (.ok pair, after)) :
    ∃ contents, Settled dir contents pair after := by
  rw [startIn_none] at h
  rcases hmarker : tree.readText (markerPath dir) with fault | contents
  · rw [hmarker] at h
    rcases fault with _ | _ | _ | _ | _
    · exact ⟨_, settled_of_adopt h⟩
    all_goals cases h
  · rw [hmarker] at h
    obtain ⟨hpair, rfl⟩ := Prod.mk.inj h
    exact ⟨contents, hmarker, mapError_eq_ok_iff.mp hpair⟩

/-! ## Runs -/

/-- What may happen to a directory: the store in it is opened, a server starts, or a server that
keeps its keys there gets a request. -/
inductive Event where
  | openStore
  | start (configured : Option KeyId) (fresh : KeyPair)
  | serve (mediator : LocalMediator) (request : Http.Request)

/-- The files that an event leaves behind. -/
def Event.perform (dir : Path) (tree : FileTree) : Event → FileTree
  | openStore => ((KeyStore.createDirectory dir).run.run tree).2
  | start configured fresh => (startIn dir configured fresh tree).2
  | serve mediator request => (Server.handle ⟨mediator, .directory dir⟩ request tree).2

/-- Events that follow each other, each with the files that it met. -/
def history (dir : Path) : List Event → FileTree → List (Event × FileTree)
  | [], _ => []
  | event :: events, tree => (event, tree) :: history dir events (event.perform dir tree)

/-- **One event** does not touch the shared key. -/
theorem Settled.perform (h : Settled dir contents pair tree) (event : Event) :
    Settled dir contents pair (event.perform dir tree) := by
  rcases event with _ | ⟨configured, fresh⟩ | ⟨mediator, request⟩
  · have hrun := run_adapt KeyStoreError.storage (rfl :
      (FileTree.createDirs dir).run.run tree = ((FileTree.createDirs dir).run.run tree))
    rw [Event.perform, KeyStore.createDirectory, hrun]
    exact h.extends (FileTree.grows_createDirs dir tree)
  · rcases configured with _ | id
    · rw [Event.perform, h.startIn]
      exact h
    · rw [Event.perform, startIn_configured]
      exact h
  · rw [Event.perform]
    rcases Server.handle_state ⟨mediator, .directory dir⟩ request tree with hsame | ⟨key, hput⟩
    · rwa [hsame]
    · exact h.puts hput fun heq ↦ KeyKind.noConfusion (Prod.mk.inj heq).1

/-- **A run** does not. -/
theorem Settled.history (h : Settled dir contents pair tree) (events : List Event) :
    ∀ visit ∈ history dir events tree, Settled dir contents pair visit.2 := by
  induction events generalizing tree with
  | nil => exact List.forall_mem_nil _
  | cons event events ih => exact List.forall_mem_cons.mpr ⟨h, ih (h.perform event)⟩

/-- What a start without a configured key that gives a key pair means for what happens later: each
start without a configured key gives that key pair and writes nothing, and the marker stays as the
start left it. -/
def Keeps (dir : Path) (early late : Event × FileTree) : Prop :=
  ∀ fresh pair after, early.1 = .start none fresh →
    startIn dir none fresh early.2 = (.ok pair, after) →
    (∀ fresh', startIn dir none fresh' late.2 = (.ok pair, late.2)) ∧
      ∃ contents, after.readText (markerPath dir) = .ok contents ∧
        (late.1.perform dir late.2).readText (markerPath dir) = .ok contents

theorem pairwise_keeps_history (events : List Event) (tree : FileTree) :
    (history dir events tree).Pairwise (Keeps dir) := by
  induction events generalizing tree with
  | nil => exact .nil
  | cons event events ih =>
    refine .cons ?_ (ih _)
    rintro ⟨late, later⟩ hlate fresh pair after rfl hstart
    obtain ⟨contents, hsettled⟩ := exists_settled_of_startIn hstart
    rw [Event.perform, hstart] at hlate
    have hlater := hsettled.history events _ hlate
    exact ⟨hlater.startIn, contents, hsettled.marker, (hlater.perform late).marker⟩

/-- A start that finds a marker loads the key that it records, or fails, and writes nothing. -/
theorem startIn_of_marker (hmarker : tree.readText (markerPath dir) ≠ .error .notFound) :
    ∃ outcome, (∀ fresh, startIn dir none fresh tree = (outcome, tree)) ∧
      ∀ pair, outcome = .ok pair → ∃ contents, tree.readText (markerPath dir) = .ok contents ∧
        keyPair (.directory dir) tree (markedId contents) = .ok pair := by
  rcases hread : tree.readText (markerPath dir) with fault | contents
  · refine ⟨.error (.file fault), fun fresh ↦ ?_, fun pair hpair ↦ by cases hpair⟩
    rw [startIn_none, hread]
    rcases fault with _ | _ | _ | _ | _
    · exact absurd hread hmarker
    all_goals rfl
  · refine ⟨(keyPair (.directory dir) tree (markedId contents)).mapError .keyCache,
      fun fresh ↦ ?_, fun pair hpair ↦ ⟨contents, rfl, mapError_eq_ok_iff.mp hpair⟩⟩
    rw [startIn_none, hread]

/-- **The shared key is kept.** -/
theorem shared_key_is_kept (dir : Path) :
    (∀ (events : List Event) (tree : FileTree),
      (history dir events tree).Pairwise (Keeps dir)) ∧
    (∀ tree : FileTree, tree.readText (markerPath dir) ≠ .error .notFound →
      ∃ outcome, (∀ fresh, startIn dir none fresh tree = (outcome, tree)) ∧
        ∀ pair, outcome = .ok pair → ∃ contents, tree.readText (markerPath dir) = .ok contents ∧
          keyPair (.directory dir) tree (markedId contents) = .ok pair ∧
          pair.id = markedId contents) ∧
    ∀ (id : KeyId) (tree : FileTree),
      ∃ outcome, (∀ fresh, startIn dir (some id) fresh tree = (outcome, tree)) ∧
        ∀ pair, outcome = .ok pair → pair.id = id := by
  refine ⟨pairwise_keeps_history, fun tree hmarker ↦ ?_, fun id tree ↦ ?_⟩
  · obtain ⟨outcome, hstart, hloaded⟩ := startIn_of_marker hmarker
    refine ⟨outcome, hstart, fun pair hpair ↦ ?_⟩
    obtain ⟨contents, hread, hkey⟩ := hloaded pair hpair
    exact ⟨contents, hread, hkey, KeyCache.id_of_keyPair_eq_ok hkey⟩
  · refine ⟨_, fun fresh ↦ startIn_configured id fresh tree, fun pair hpair ↦ ?_⟩
    exact KeyCache.id_of_keyPair_eq_ok (mapError_eq_ok_iff.mp hpair)

end SharedKey

end DualSeal

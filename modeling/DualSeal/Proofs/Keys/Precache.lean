import DualSeal.Proofs.Envelope.Addressing
import DualSeal.Proofs.Keys.Cache

/-!
# What a precache fetches

A precache goes through ids in order, each at its first occurrence, up to the first one that fails.
It asks the resolver for those that the store lacks, and for no other, and what it has fetched by
then is in the store as it came (`precache_fills`). Nothing else is touched: texts that were there
stay, whatever they hold, and so do private ones.

An id comes up again only when the store has a text under it, so that repetitions may be left out
(`runOn_precache_firstOccurrences`). What remains is an induction over different ids, in which a
fetch changes nothing that the others look at.
-/

namespace DualSeal

variable {σ : Type}

/-- A resolver whose answers depend on the id only, and which puts down what it is asked. -/
def KeyResolver.logged (answer : KeyId → Except ResolverError String) :
    KeyResolver (StateM (List KeyId)) :=
  fun id ↦ ExceptT.mk fun log ↦ (answer id, log ++ [id])

namespace KeyCache

/-- Whether a store has no public text under an id. -/
def lacks (store : KeyStore σ) (state : σ) (id : KeyId) : Bool :=
  match store.get .pub id state with
  | .error (.notFound _) => true
  | _ => false

/-- Why an id fails in a state: it cannot be looked up; or the store lacks it, and it cannot be
fetched, is not a key, is another key, or cannot be written. -/
inductive Fails (store : KeyStore σ) (answer : KeyId → Except ResolverError String) (state : σ)
    (id : KeyId) : KeyCacheError → Prop
  | lookup {error : KeyStoreError} (h : store.get .pub id state = .error error)
    (hne : ∀ other, error ≠ .notFound other) : Fails store answer state id (.store error)
  | fetch {error : ResolverError} (hlacks : lacks store state id = true)
    (h : answer id = .error error) : Fails store answer state id (.resolver id error)
  | parse {text : String} {error : KeyError} (hlacks : lacks store state id = true)
    (hanswer : answer id = .ok text) (h : PublicKey.ofPem text = .error error) :
    Fails store answer state id (.invalidKey id error)
  | fingerprint {text : String} {key : PublicKey} (hlacks : lacks store state id = true)
    (hanswer : answer id = .ok text) (hkey : PublicKey.ofPem text = .ok key) (h : key.id ≠ id) :
    Fails store answer state id (.fingerprintMismatch id key.id)
  | write {text : String} {key : PublicKey} {error : KeyStoreError}
    (hlacks : lacks store state id = true) (hanswer : answer id = .ok text)
    (hkey : PublicKey.ofPem text = .ok key) (hid : key.id = id)
    (h : store.put .pub id text state = .error error) : Fails store answer state id (.store error)

/-- Ids were dealt with: those that the store had lacked have the texts that were fetched for them,
the others had texts before, and nothing else has changed. -/
structure Fills (store : KeyStore σ) (answer : KeyId → Except ResolverError String)
    (done : List KeyId) (before after : σ) : Prop where
  fetched : ∀ id ∈ done, lacks store before id = true → ∃ text key, answer id = .ok text ∧
    PublicKey.ofPem text = .ok key ∧ key.id = id ∧ store.get .pub id after = .ok text
  found : ∀ id ∈ done, lacks store before id = false →
    ∃ text, store.get .pub id before = .ok text
  others : ∀ kind id, (kind = .pub → id ∈ done → lacks store before id = false) →
    store.get kind id after = store.get kind id before

variable {store : KeyStore σ} {answer : KeyId → Except ResolverError String}
  {before between after : σ} {id : KeyId} {done : List KeyId}

/-! ## One id -/

theorem lacks_congr (h : store.get .pub id after = store.get .pub id before) :
    lacks store after id = lacks store before id := by
  rw [lacks, lacks, h]

theorem lacks_eq_true_iff :
    lacks store before id = true
      ↔ ∃ other, store.get .pub id before = .error (.notFound other) := by
  rw [lacks]
  split
  · rename_i other heq
    exact iff_of_true rfl ⟨other, heq⟩
  · rename_i hne
    exact ⟨nofun, fun ⟨other, heq⟩ ↦ absurd heq (hne other)⟩

theorem lacks_eq_false_of_get {text : String} (h : store.get .pub id before = .ok text) :
    lacks store before id = false := by
  rw [lacks, h]

theorem parsePublicKey_eq_error {text : String} {error : KeyCacheError}
    (h : parsePublicKey id text = .error error) :
    (∃ fault, PublicKey.ofPem text = .error fault ∧ error = .invalidKey id fault) ∨
      ∃ key, PublicKey.ofPem text = .ok key ∧ key.id ≠ id ∧
        error = .fingerprintMismatch id key.id := by
  rcases hread : PublicKey.ofPem text with fault | key
  · rw [parsePublicKey, hread] at h
    exact .inl ⟨fault, rfl, (Except.error.inj h).symm⟩
  · refine .inr ⟨key, rfl, ?_⟩
    by_cases hid : id = key.id
    · rw [parsePublicKey_eq_ok_iff.mpr ⟨hread, hid.symm⟩] at h
      cases h
    · rw [parsePublicKey, hread, Except.mapError, ok_bind, ensureFingerprint, if_neg hid] at h
      exact ⟨fun heq ↦ hid heq.symm, (Except.error.inj h).symm⟩

/-- **One fetch.** The resolver is asked, and the key that it gives is written, or the id fails and
nothing is. -/
theorem runOn_fetch_logged (answer : KeyId → Except ResolverError String)
    (hlacks : lacks store before id = true) (log : List KeyId) :
    (∃ text key after, answer id = .ok text ∧ PublicKey.ofPem text = .ok key ∧ key.id = id ∧
      store.put .pub id text before = .ok after ∧
      runOn (fetch store (KeyResolver.logged answer).apart id) before log
        = ((.ok (), after), log ++ [id])) ∨
    ∃ error, Fails store answer before id error ∧
      runOn (fetch store (KeyResolver.logged answer).apart id) before log
        = ((.error error, before), log ++ [id]) := by
  have hask : (KeyResolver.logged answer id).run.run log = (answer id, log ++ [id]) := rfl
  rw [runOn_fetch, hask]
  rcases hanswer : answer id with error | text
  · exact .inr ⟨_, .fetch hlacks hanswer, rfl⟩
  dsimp only
  rcases hparse : parsePublicKey id text with error | key
  · refine .inr ⟨error, ?_, rfl⟩
    obtain ⟨fault, hread, rfl⟩ | ⟨key, hread, hne, rfl⟩ := parsePublicKey_eq_error hparse
    · exact .parse hlacks hanswer hread
    · exact .fingerprint hlacks hanswer hread hne
  obtain ⟨hread, hid⟩ := parsePublicKey_eq_ok_iff.mp hparse
  dsimp only
  rw [runOn_put]
  rcases hput : store.put .pub id text before with error | after
  · exact .inr ⟨_, .write hlacks hanswer hread hid hput, rfl⟩
  · exact .inl ⟨text, key, after, rfl, hread, hid, hput, rfl⟩

/-! ## Several ids -/

theorem Fills.nil (state : σ) : Fills store answer [] state state :=
  ⟨fun _ hid ↦ absurd hid List.not_mem_nil, fun _ hid ↦ absurd hid List.not_mem_nil,
    fun _ _ _ ↦ rfl⟩

theorem Fills.cons_found {text : String} (h : Fills store answer done before after)
    (hget : store.get .pub id before = .ok text) :
    Fills store answer (id :: done) before after where
  fetched := by
    refine List.forall_mem_cons.mpr ⟨fun hlacks ↦ ?_, h.fetched⟩
    rw [lacks_eq_false_of_get hget] at hlacks
    cases hlacks
  found := List.forall_mem_cons.mpr ⟨fun _ ↦ ⟨text, hget⟩, h.found⟩
  others kind other hother :=
    h.others kind other fun hkind hmem ↦ hother hkind (List.mem_cons_of_mem id hmem)

theorem Fills.cons_fetched (htable : store.IsTable) {text : String} {key : PublicKey}
    (h : Fills store answer done between after) (hfresh : id ∉ done)
    (hlacks : lacks store before id = true) (hanswer : answer id = .ok text)
    (hkey : PublicKey.ofPem text = .ok key) (hid : key.id = id)
    (hput : store.put .pub id text before = .ok between) :
    Fills store answer (id :: done) before after := by
  have hne : ∀ kind other, (kind, other) ≠ (.pub, id) →
      store.get kind other between = store.get kind other before :=
    fun kind other ↦ htable.get_put_of_ne hput
  have hdone : ∀ other ∈ done, store.get .pub other between = store.get .pub other before := by
    intro other hother
    refine hne .pub other fun heq ↦ hfresh ?_
    rwa [← (Prod.mk.inj heq).2]
  refine ⟨List.forall_mem_cons.mpr ⟨fun _ ↦ ?_, fun other hother ↦ ?_⟩,
    List.forall_mem_cons.mpr ⟨fun hhas ↦ ?_, fun other hother ↦ ?_⟩, fun kind other hother ↦ ?_⟩
  · refine ⟨text, key, hanswer, hkey, hid, ?_⟩
    rw [h.others .pub id fun _ hmem ↦ absurd hmem hfresh]
    exact htable.get_put hput
  · rw [← lacks_congr (hdone other hother)]
    exact h.fetched other hother
  · rw [hlacks] at hhas
    cases hhas
  · rw [← lacks_congr (hdone other hother), ← hdone other hother]
    exact h.found other hother
  · have hsame : (kind, other) ≠ (.pub, id) := by
      intro heq
      obtain ⟨rfl, rfl⟩ := Prod.mk.inj heq
      have hhas := hother rfl List.mem_cons_self
      rw [hlacks] at hhas
      cases hhas
    rw [← hne kind other hsame]
    refine h.others kind other fun hkind hmem ↦ ?_
    rw [lacks_congr (hdone other hmem)]
    exact hother hkind (List.mem_cons_of_mem id hmem)

/-- Where there is a text under each id, nothing is asked and nothing is done. -/
theorem runOn_precache_of_found {ρ : Type} (resolver : KeyResolver (StateM ρ)) {ids : List KeyId}
    (h : ∀ id ∈ ids, ∃ text, store.get .pub id before = .ok text) (world : ρ) :
    runOn (precache store resolver.apart ids) before world = ((.ok (), before), world) := by
  induction ids with
  | nil => rfl
  | cons id ids ih =>
    obtain ⟨⟨text, hget⟩, hrest⟩ := List.forall_mem_cons.mp h
    rw [runOn_precache_cons, hget]
    exact ih hrest

/-- **Repetitions** are found, and may as well be left out. -/
theorem runOn_precache_firstOccurrences {ρ : Type} (htable : store.IsTable)
    (resolver : KeyResolver (StateM ρ)) {seen : List KeyId} (ids : List KeyId)
    (hseen : ∀ id ∈ seen, ∃ text, store.get .pub id before = .ok text) (world : ρ) :
    runOn (precache store resolver.apart ids) before world
      = runOn (precache store resolver.apart (Project.firstOccurrences seen ids)) before world := by
  induction ids generalizing seen before world with
  | nil => rfl
  | cons id ids ih =>
    rw [Project.firstOccurrences]
    split_ifs with hmem
    · obtain ⟨text, hget⟩ := hseen id hmem
      rw [runOn_precache_cons, hget]
      exact ih hseen world
    rw [runOn_precache_cons, runOn_precache_cons]
    rcases hget : store.get .pub id before with error | text
    · rcases error with other | fault | fault
      · have hcovers : Covers store [id] before
            (runOn (fetch store resolver.apart id) before world) := covers_fetch htable id
        rcases hrun : runOn (fetch store resolver.apart id) before world
          with ⟨⟨error | _, after⟩, world'⟩
        · rfl
        · rw [hrun] at hcovers
          refine ih (List.forall_mem_cons.mpr ⟨?_, fun other hother ↦ ?_⟩) world'
          · exact hcovers.present rfl id (List.mem_singleton_self id)
          · exact hcovers.publishes.pub other (hseen other hother)
      · rfl
      · rfl
    · exact ih (List.forall_mem_cons.mpr ⟨⟨text, hget⟩, hseen⟩) world

/-- **Different ids**, one after the other. -/
theorem runOn_precache_of_nodup (htable : store.IsTable)
    (answer : KeyId → Except ResolverError String) {ids : List KeyId} (hnodup : ids.Nodup)
    (before : σ) (log : List KeyId) :
    ∃ done rest outcome after, ids = done ++ rest ∧
      runOn (precache store (KeyResolver.logged answer).apart ids) before log
        = ((outcome, after), log ++ (done ++ rest.take 1).filter (lacks store before)) ∧
      Fills store answer done before after ∧
      ((outcome = .ok () ∧ rest = []) ∨ ∃ id later error, outcome = .error error ∧
        rest = id :: later ∧ Fails store answer after id error) := by
  induction ids generalizing before log with
  | nil => exact ⟨[], [], .ok (), before, rfl, by simp [runOn_precache_nil], .nil before, by simp⟩
  | cons id ids ih =>
    obtain ⟨hid, hids⟩ := List.nodup_cons.mp hnodup
    rw [runOn_precache_cons]
    rcases hget : store.get .pub id before with error | text
    · rcases hlacks : lacks store before id with _ | _
      · -- A lookup that fails for another reason ends it before anything is asked.
        have hne : ∀ other, error ≠ .notFound other := by
          rintro other rfl
          rw [lacks_eq_true_iff.mpr ⟨other, hget⟩] at hlacks
          cases hlacks
        refine ⟨[], id :: ids, .error (.store error), before, rfl, ?_, .nil before,
          .inr ⟨id, ids, _, rfl, rfl, .lookup hget hne⟩⟩
        rcases error with other | fault | fault
        · exact absurd rfl (hne other)
        all_goals simp [hlacks]
      obtain ⟨other, hother⟩ := lacks_eq_true_iff.mp hlacks
      obtain rfl := Except.error.inj (hget.symm.trans hother)
      obtain ⟨text, key, between, hanswer, hkey, hkeyId, hput, hfetch⟩ | ⟨error, hfails, hfetch⟩ :=
        runOn_fetch_logged answer hlacks log
      · dsimp only
        rw [hfetch]
        obtain ⟨done, rest, outcome, after, rfl, hrun, hfills, hend⟩ :=
          ih hids between (log ++ [id])
        have hfresh : id ∉ done := fun hmem ↦ hid (List.mem_append_left rest hmem)
        refine ⟨id :: done, rest, outcome, after, rfl, ?_,
          hfills.cons_fetched htable hfresh hlacks hanswer hkey hkeyId hput, hend⟩
        -- The others are looked up as they were before the fetch.
        have hsame : (done ++ rest.take 1).filter (lacks store between)
            = (done ++ rest.take 1).filter (lacks store before) := by
          refine List.filter_congr fun other hmem ↦ lacks_congr (htable.get_put_of_ne hput ?_)
          intro heq
          rw [← (Prod.mk.inj heq).2] at hid
          exact hid ((List.mem_append.mp hmem).elim (List.mem_append_left rest)
            fun h ↦ List.mem_append_right done (List.mem_of_mem_take h))
        dsimp only
        rw [hrun, hsame, List.cons_append, List.filter_cons_of_pos hlacks, List.append_assoc]
        rfl
      · dsimp only
        rw [hfetch]
        refine ⟨[], id :: ids, .error error, before, rfl, ?_, .nil before,
          .inr ⟨id, ids, error, rfl, rfl, hfails⟩⟩
        simp [hlacks]
    · obtain ⟨done, rest, outcome, after, rfl, hrun, hfills, hend⟩ := ih hids before log
      refine ⟨id :: done, rest, outcome, after, rfl, ?_, hfills.cons_found hget, hend⟩
      have hhas : ¬ lacks store before id = true := by
        rw [lacks_eq_false_of_get hget]
        exact nofun
      dsimp only
      rw [hrun, List.cons_append, List.filter_cons_of_neg hhas]

theorem Fills.kept (h : Fills store answer done before after) {kind : KeyKind} {text : String}
    (hget : store.get kind id before = .ok text) : store.get kind id after = .ok text := by
  rw [← hget]
  refine h.others kind id fun hkind _ ↦ ?_
  subst hkind
  exact lacks_eq_false_of_get hget

theorem Fills.exists_get (h : Fills store answer done before after) (hid : id ∈ done) :
    ∃ text, store.get .pub id after = .ok text := by
  rcases hlacks : lacks store before id with _ | _
  · obtain ⟨text, hget⟩ := h.found id hid hlacks
    exact ⟨text, h.kept hget⟩
  · obtain ⟨text, -, -, -, -, hget⟩ := h.fetched id hid hlacks
    exact ⟨text, hget⟩

theorem not_fails_of_get {text : String} {error : KeyCacheError}
    (hget : store.get .pub id after = .ok text) : ¬ Fails store answer after id error := by
  have hhas : lacks store after id ≠ true := by
    rw [lacks_eq_false_of_get hget]
    exact nofun
  rintro (⟨h, -⟩ | ⟨hlacks, -⟩ | ⟨hlacks, -, -⟩ | ⟨hlacks, -, -, -⟩ | ⟨hlacks, -, -, -, -⟩)
  · cases hget.symm.trans h
  all_goals exact hhas hlacks

/-- **A precache is an exact fill.** The different ids, in the order in which they first come, are
those dealt with and the rest, which starts with the one that failed. The resolver was asked for
those that the store had lacked, up to the one that failed, each once. Texts that there were stay,
the others are those that were fetched, and nothing else has changed. If no id fails, all have
texts, and to do it once more asks nothing of any resolver and changes nothing. -/
theorem precache_fills (htable : store.IsTable) (answer : KeyId → Except ResolverError String)
    (ids : List KeyId) (before : σ) :
    ∃ done rest outcome after, ids.eraseDups = done ++ rest ∧
      runOn (precache store (KeyResolver.logged answer).apart ids) before []
        = ((outcome, after), (done ++ rest.take 1).filter (lacks store before)) ∧
      ((done ++ rest.take 1).filter (lacks store before)).Nodup ∧
      Fills store answer done before after ∧
      (∀ id ∈ rest, store.get .pub id after = store.get .pub id before) ∧
      (∀ id, store.get .priv id after = store.get .priv id before) ∧
      (∀ kind id text, store.get kind id before = .ok text →
        store.get kind id after = .ok text) ∧
      ((outcome = .ok () ∧ rest = []) ∨ ∃ id later error, outcome = .error error ∧
        rest = id :: later ∧ Fails store answer after id error) ∧
      (outcome = .ok () ↔ ∀ id ∈ ids, ∀ error, ¬ Fails store answer after id error) ∧
      (outcome = .ok () → (∀ id ∈ ids, ∃ text, store.get .pub id after = .ok text) ∧
        ∀ {ρ : Type} (resolver : KeyResolver (StateM ρ)) (world : ρ),
          runOn (precache store resolver.apart ids) after world = ((.ok (), after), world)) := by
  have hfirst : ids.eraseDups = Project.firstOccurrences [] ids := by
    rw [Project.firstOccurrences_eq_eraseDups]
    simp
  have hmem : ∀ id, id ∈ ids.eraseDups ↔ id ∈ ids := by
    intro id
    rw [hfirst, Project.mem_firstOccurrences]
    simp
  have hnodup : ids.eraseDups.Nodup := by
    rw [hfirst]
    exact Project.nodup_firstOccurrences [] ids
  obtain ⟨done, rest, outcome, after, hids, hrun, hfills, hend⟩ :=
    runOn_precache_of_nodup htable answer hnodup before []
  rw [hids] at hnodup
  have hasked : (done ++ rest.take 1).Nodup :=
    hnodup.sublist ((List.take_sublist 1 rest).append_left done)
  have hfilled : outcome = .ok () → ∀ id ∈ ids, ∃ text, store.get .pub id after = .ok text := by
    intro hok id hid
    obtain ⟨-, rfl⟩ | ⟨_, _, error, rfl, -⟩ := hend
    · rw [← hmem id, hids, List.append_nil] at hid
      exact hfills.exists_get hid
    · cases hok
  refine ⟨done, rest, outcome, after, hids, ?_, hasked.filter _, hfills, fun id hid ↦ ?_,
    fun id ↦ hfills.others .priv id nofun, fun kind id text ↦ hfills.kept, hend,
    ⟨fun hok id hid error ↦ ?_, fun hnone ↦ ?_⟩, fun hok ↦ ⟨hfilled hok, fun resolver world ↦ ?_⟩⟩
  · rw [runOn_precache_firstOccurrences htable _ ids fun _ h ↦ absurd h List.not_mem_nil, ← hfirst]
    exact hrun
  · exact hfills.others .pub id fun _ hdone ↦
      absurd hid ((List.nodup_append.mp hnodup).2.2 id hdone id · rfl)
  · obtain ⟨text, hget⟩ := hfilled hok id hid
    exact not_fails_of_get hget
  · obtain ⟨hok, -⟩ | ⟨id, later, error, -, rfl, hfails⟩ := hend
    · exact hok
    · refine absurd hfails (hnone id ?_ error)
      rw [← hmem id, hids]
      exact List.mem_append_right done List.mem_cons_self
  · exact runOn_precache_of_found resolver (hfilled hok) world

section Corrupt

open KeyPair

/-- A cache with a text under the id of the second key that is no key. -/
def corrupt : TextTable (KeyKind × KeyId) := TextTable.empty.insert (.pub, two.id) "no key"

/-- Gives out the first key under its id, and nothing else. -/
def onlyFirst (id : KeyId) : Except ResolverError String :=
  if id = one.id then .ok one.publicKey.toPem else .error (.notFound id)

/-- The first key is fetched once, the text that is no key stays, and the third key fails. -/
theorem precache_fills_corrupt :
    ∃ outcome after asked,
      runOn (precache .memory (KeyResolver.logged onlyFirst).apart
        [one.id, two.id, one.id, three.id]) corrupt [] = ((outcome, after), asked) ∧
      asked.Nodup ∧ two.id ∉ asked ∧ outcome ≠ .ok () ∧
      KeyStore.memory.get .pub two.id after = .ok "no key" := by
  have htwo : KeyStore.memory.get .pub two.id corrupt = .ok "no key" := by
    dsimp only [KeyStore.memory, corrupt]
    rw [TextTable.get?_insert, if_pos rfl]
  have hlacks : lacks .memory corrupt three.id = true := by
    refine lacks_eq_true_iff.mpr ⟨three.id, ?_⟩
    dsimp only [KeyStore.memory, corrupt]
    rw [TextTable.get?_insert, if_neg fun heq ↦ two_id_ne_three_id (Prod.mk.inj heq).2.symm,
      TextTable.get?_empty]
  obtain ⟨done, rest, outcome, after, hids, hrun, hasked, hfills, -, -, hkept, hend, -, -⟩ :=
    precache_fills KeyStore.memory_isTable onlyFirst [one.id, two.id, one.id, three.id] corrupt
  refine ⟨outcome, after, _, hrun, hasked, fun hmem ↦ ?_, fun hok ↦ ?_, hkept .pub two.id _ htwo⟩
  · have hhas := (List.mem_filter.mp hmem).2
    rw [lacks_eq_false_of_get htwo] at hhas
    cases hhas
  · obtain ⟨-, rfl⟩ | ⟨_, _, error, rfl, -⟩ := hend
    · have hthree : three.id ∈ done := by
        rw [← List.append_nil done, ← hids]
        simp
      obtain ⟨text, key, hanswer, -⟩ := hfills.fetched three.id hthree hlacks
      rw [onlyFirst, if_neg fun heq ↦ one_id_ne_three_id heq.symm] at hanswer
      cases hanswer
    · cases hok

end Corrupt

end KeyCache

end DualSeal

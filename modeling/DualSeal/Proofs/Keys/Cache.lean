import DualSeal.Keys.Lookup
import DualSeal.Keys.Registry
import DualSeal.Proofs.Envelope.Resolution
import DualSeal.Proofs.Envelope.RoundTrip
import DualSeal.Proofs.Keys.Store
import DualSeal.Proofs.Keys.Text
import DualSeal.Proofs.Server.Requests

/-!
# No resolver can poison the cache

A cache is good when each of its texts is read as the key that its id names. Every write keeps it so
for a reason of its own: a fetched text is stored once it was read as the right key, a registered
key is written anew under the fingerprint that is computed from it, and a key pair under its own.
Fetched and registered texts are public, so private ones stay as they are, whatever is fetched.

Resolvers act in a world of their own, which they may change with each call and which is beyond the
cache. They may answer anything, to the same request too, and a run may meet as many of them as it
likes. Of a store only `KeyStore.IsTable` is used, which each of the three stores has.
-/

namespace DualSeal

variable {σ ρ : Type}

/-- A resolver that does not touch the store. -/
def KeyResolver.apart (resolver : KeyResolver (StateM ρ)) : KeyResolver (StateT σ (StateM ρ)) :=
  fun id ↦ ExceptT.mk (StateT.lift (resolver id).run)

/-- The text is read as a key of this kind whose fingerprint is the id. -/
def KeyKind.Holds (id : KeyId) (text : String) : KeyKind → Prop
  | .pub => ∃ key, PublicKey.ofPem text = .ok key ∧ key.id = id
  | .priv => ∃ pair, KeyPair.ofPem text = .ok pair ∧ pair.id = id

namespace KeyCache

/-- Every text in the store holds the key that its id names. -/
def Good (store : KeyStore σ) (state : σ) : Prop :=
  ∀ kind id text, store.get kind id state = .ok text → kind.Holds id text

/-! ## What is read -/

theorem ensureFingerprint_eq_ok_iff {expected actual : KeyId} {u : Unit} :
    ensureFingerprint expected actual = .ok u ↔ expected = actual := by
  rw [ensureFingerprint]
  split_ifs with h
  · exact ⟨fun _ ↦ h, fun _ ↦ rfl⟩
  · exact ⟨nofun, fun heq ↦ absurd heq h⟩

theorem checked_eq_ok_iff {ε α : Type} {read : Except ε α} {words : ε → KeyCacheError}
    {idOf : α → KeyId} {id : KeyId} {a : α} :
    (do
      let found ← read.mapError words
      ensureFingerprint id (idOf found)
      return found) = .ok a ↔ read = .ok a ∧ idOf a = id := by
  rw [bind_eq_ok_iff]
  constructor
  · rintro ⟨found, hread, h⟩
    obtain ⟨u, hid, h⟩ := bind_eq_ok_iff.mp h
    obtain rfl := Except.ok.inj h
    exact ⟨mapError_eq_ok_iff.mp hread, (ensureFingerprint_eq_ok_iff.mp hid).symm⟩
  · rintro ⟨hread, hid⟩
    refine ⟨a, mapError_eq_ok_iff.mpr hread, ?_⟩
    exact bind_eq_ok_iff.mpr ⟨(), ensureFingerprint_eq_ok_iff.mpr hid.symm, rfl⟩

theorem parsePublicKey_eq_ok_iff {id : KeyId} {text : String} {key : PublicKey} :
    parsePublicKey id text = .ok key ↔ PublicKey.ofPem text = .ok key ∧ key.id = id :=
  checked_eq_ok_iff

theorem parseKeyPair_eq_ok_iff {id : KeyId} {text : String} {pair : KeyPair} :
    parseKeyPair id text = .ok pair ↔ KeyPair.ofPem text = .ok pair ∧ pair.id = id :=
  checked_eq_ok_iff

theorem id_of_keyPair_eq_ok {store : KeyStore σ} {state : σ} {id : KeyId} {pair : KeyPair}
    (h : keyPair store state id = .ok pair) : pair.id = id := by
  obtain ⟨text, -, hparse⟩ := bind_eq_ok_iff.mp h
  exact (parseKeyPair_eq_ok_iff.mp hparse).2

theorem Good.exists_lookup_eq {store : KeyStore σ} {state : σ} (hgood : Good store state)
    {id : KeyId} {text : String} (h : store.get .pub id state = .ok text) :
    ∃ key, lookup store state id = .ok (some key) ∧ key.id = id := by
  obtain ⟨key, hread, hid⟩ := hgood .pub id text h
  have hkey : publicKey store state id = .ok key :=
    bind_eq_ok_iff.mpr ⟨text, mapError_eq_ok_iff.mpr h, parsePublicKey_eq_ok_iff.mpr ⟨hread, hid⟩⟩
  exact ⟨key, by rw [lookup, hkey], hid⟩

/-! ## What a write does -/

section Writes

variable {store : KeyStore σ} {before after : σ}

theorem Good.put (htable : store.IsTable) (hgood : Good store before) {kind : KeyKind} {id : KeyId}
    {text : String} (htext : kind.Holds id text)
    (hput : store.put kind id text before = .ok after) : Good store after := by
  intro kind' id' text' hget
  by_cases hsame : (kind', id') = (kind, id)
  · obtain ⟨rfl, rfl⟩ := Prod.mk.inj hsame
    rw [htable.get_put hput] at hget
    obtain rfl := Except.ok.inj hget
    exact htext
  · rw [htable.get_put_of_ne hput hsame] at hget
    exact hgood kind' id' text' hget

/-- Nothing but public keys is put into the store, each under its fingerprint: a good cache stays
good, private texts stay as they are, and no public key goes missing. -/
structure Publishes (store : KeyStore σ) (before after : σ) : Prop where
  good : Good store before → Good store after
  priv : ∀ id, store.get .priv id after = store.get .priv id before
  pub : ∀ id, (∃ text, store.get .pub id before = .ok text) →
    ∃ text, store.get .pub id after = .ok text

namespace Publishes

theorem refl (state : σ) : Publishes store state state := ⟨id, fun _ ↦ rfl, fun _ ↦ id⟩

theorem trans {last : σ} (h : Publishes store before after) (h' : Publishes store after last) :
    Publishes store before last :=
  ⟨h'.good ∘ h.good, fun id ↦ (h'.priv id).trans (h.priv id), fun id ↦ h'.pub id ∘ h.pub id⟩

theorem put (htable : store.IsTable) {id : KeyId} {text : String}
    (htext : KeyKind.pub.Holds id text)
    (hput : store.put .pub id text before = .ok after) : Publishes store before after where
  good hgood := hgood.put htable htext hput
  priv other := htable.get_put_of_ne hput nofun
  pub other h := by
    by_cases hsame : other = id
    · exact ⟨text, hsame ▸ htable.get_put hput⟩
    · rwa [htable.get_put_of_ne hput fun heq ↦ hsame (Prod.mk.inj heq).2]

end Publishes

end Writes

/-! ## Runs -/

/-- What an action on the store comes to, and what it leaves of store and world. -/
def runOn {ε α : Type} (action : ExceptT ε (StateT σ (StateM ρ)) α) (state : σ) (world : ρ) :
    (Except ε α × σ) × ρ :=
  (action.run.run state).run world

section Runs

variable {ε α β : Type} {x : ExceptT ε (StateT σ (StateM ρ)) α} {state after : σ} {world world' : ρ}

theorem runOn_bind_ok {a : α} (f : α → ExceptT ε (StateT σ (StateM ρ)) β)
    (h : runOn x state world = ((.ok a, after), world')) :
    runOn (x >>= f) state world = runOn (f a) after world' := by
  rw [runOn] at h
  rw [runOn, ExceptT.run_bind, StateT.run_bind, StateT.run_bind, h]
  rfl

theorem runOn_bind_error {e : ε} (f : α → ExceptT ε (StateT σ (StateM ρ)) β)
    (h : runOn x state world = ((.error e, after), world')) :
    runOn (x >>= f) state world = ((.error e, after), world') := by
  rw [runOn] at h
  rw [runOn, ExceptT.run_bind, StateT.run_bind, StateT.run_bind, h]
  rfl

/-- What holds of the store after one action still holds after the next one, if that one keeps
it. -/
theorem runOn_bind_keeps {Keeps : σ → Prop} (f : α → ExceptT ε (StateT σ (StateM ρ)) β)
    (hx : Keeps (runOn x state world).1.2)
    (hf : ∀ a after world', Keeps after → Keeps (runOn (f a) after world').1.2) :
    Keeps (runOn (x >>= f) state world).1.2 := by
  rcases hrun : runOn x state world with ⟨⟨outcome, after⟩, world'⟩
  rw [hrun] at hx
  cases outcome with
  | error e =>
    rw [runOn_bind_error f hrun]
    exact hx
  | ok a =>
    rw [runOn_bind_ok f hrun]
    exact hf a after world' hx

theorem runOn_getThe (state : σ) (world : ρ) :
    runOn (getThe σ : ExceptT ε (StateT σ (StateM ρ)) σ) state world
      = ((.ok state, state), world) := rfl

end Runs

variable (store : KeyStore σ) (resolver : KeyResolver (StateM ρ)) (state : σ) (world : ρ)

theorem runOn_put (kind : KeyKind) (id : KeyId) (text : String) :
    runOn (put store kind id text) state world =
      match store.put kind id text state with
      | .ok after => ((.ok (), after), world)
      | .error error => ((.error (.store error), state), world) := by
  rw [put, runOn_bind_ok _ (runOn_getThe state world)]
  cases store.put kind id text state with
  | ok after => rfl
  | error error => rfl

theorem runOn_fetch (id : KeyId) :
    runOn (fetch store resolver.apart id) state world =
      match (resolver id).run.run world with
      | (.error error, world) => ((.error (.resolver id error), state), world)
      | (.ok text, world) =>
        match parsePublicKey id text with
        | .error error => ((.error error, state), world)
        | .ok _ => runOn (put store .pub id text) state world := by
  rcases hanswer : (resolver id).run.run world with ⟨answer, world'⟩
  let ask : StateT σ (StateM ρ) (Except ResolverError String) := (resolver.apart id).run
  have hcall : runOn (liftM ask : ExceptT KeyCacheError (StateT σ (StateM ρ)) _) state world
      = ((.ok answer, state), world') := by
    change ((Except.ok ((resolver id).run.run world).1, state), ((resolver id).run.run world).2) = _
    rw [hanswer]
  rw [fetch, runOn_bind_ok _ hcall]
  cases answer with
  | error error => rfl
  | ok text =>
    dsimp only
    cases parsePublicKey id text with
    | error error => rfl
    | ok key => rfl

theorem runOn_precache_nil :
    runOn (precache store resolver.apart []) state world = ((.ok (), state), world) := rfl

theorem runOn_precache_cons (id : KeyId) (ids : List KeyId) :
    runOn (precache store resolver.apart (id :: ids)) state world =
      match store.get .pub id state with
      | .ok _ => runOn (precache store resolver.apart ids) state world
      | .error (.notFound _) =>
        match runOn (fetch store resolver.apart id) state world with
        | ((.ok _, state), world) => runOn (precache store resolver.apart ids) state world
        | ((.error error, state), world) => ((.error error, state), world)
      | .error error => ((.error (.store error), state), world) := by
  rw [precache, runOn_bind_ok _ (runOn_getThe state world)]
  cases store.get .pub id state with
  | ok text => rfl
  | error error =>
    cases error with
    | notFound other =>
      dsimp only
      rcases hfetch : runOn (fetch store resolver.apart id) state world
        with ⟨⟨outcome, after⟩, world'⟩
      cases outcome with
      | ok u => exact runOn_bind_ok _ hfetch
      | error error => exact runOn_bind_error _ hfetch
    | invalidKeyId fault => rfl
    | storage fault => rfl

variable {store resolver state world}

/-- Whatever a run comes to, it only publishes, and if it comes to its end there is a text under
each of these ids. -/
structure Covers (store : KeyStore σ) (ids : List KeyId) (state : σ)
    (run : (Except KeyCacheError Unit × σ) × ρ) : Prop where
  publishes : Publishes store state run.1.2
  present : run.1.1 = .ok () → ∀ id ∈ ids, ∃ text, store.get .pub id run.1.2 = .ok text

/-- A run that fails before it has written anything. -/
theorem Covers.failed (ids : List KeyId) (error : KeyCacheError) :
    Covers store ids state ((.error error, state), world) :=
  ⟨.refl state, nofun⟩

theorem covers_put (htable : store.IsTable) {id : KeyId} {text : String}
    (htext : KeyKind.pub.Holds id text) :
    Covers store [id] state (runOn (put store .pub id text) state world) := by
  rw [runOn_put]
  cases hput : store.put .pub id text state with
  | error error => exact .failed _ _
  | ok after =>
    refine ⟨.put htable htext hput, fun _ ↦ ?_⟩
    rw [List.forall_mem_singleton]
    exact ⟨text, htable.get_put hput⟩

/-- Whatever a resolver answers, only the key that was asked for is stored. -/
theorem covers_fetch (htable : store.IsTable) (id : KeyId) :
    Covers store [id] state (runOn (fetch store resolver.apart id) state world) := by
  rw [runOn_fetch]
  rcases (resolver id).run.run world with ⟨answer, world'⟩
  cases answer with
  | error error => exact .failed _ _
  | ok text =>
    dsimp only
    cases hparse : parsePublicKey id text with
    | error error => exact .failed _ _
    | ok key => exact covers_put htable ⟨key, parsePublicKey_eq_ok_iff.mp hparse⟩

/-- Fetching what is missing, by induction on the ids: what one round has stored, or found, the next
ones leave in its place. -/
theorem covers_precache (htable : store.IsTable) (ids : List KeyId) :
    Covers store ids state (runOn (precache store resolver.apart ids) state world) := by
  induction ids generalizing state world with
  | nil => exact ⟨.refl state, fun _ ↦ List.forall_mem_nil _⟩
  | cons id ids ih =>
    -- A round that ends with a text under the id, and the rounds after it.
    have hround : ∀ {after : σ} {world' : ρ}, Publishes store state after →
        (∃ text, store.get .pub id after = .ok text) →
        Covers store (id :: ids) state
          (runOn (precache store resolver.apart ids) after world') := by
      intro after world' hpublishes htext
      have hrest : Covers store ids after
          (runOn (precache store resolver.apart ids) after world') := ih
      exact ⟨hpublishes.trans hrest.publishes, fun hok ↦
        List.forall_mem_cons.mpr ⟨hrest.publishes.pub id htext, hrest.present hok⟩⟩
    rw [runOn_precache_cons]
    cases hget : store.get .pub id state with
    | ok text => exact hround (.refl state) ⟨text, hget⟩
    | error error =>
      cases error with
      | invalidKeyId fault => exact .failed _ _
      | storage fault => exact .failed _ _
      | notFound other =>
        have hfetch : Covers store [id] state (runOn (fetch store resolver.apart id) state world) :=
          covers_fetch htable id
        rcases hrun : runOn (fetch store resolver.apart id) state world
          with ⟨⟨outcome, after⟩, world'⟩
        rw [hrun] at hfetch
        dsimp only
        cases outcome with
        | error error => exact ⟨hfetch.publishes, nofun⟩
        | ok u => exact hround hfetch.publishes (hfetch.present rfl id (List.mem_singleton_self id))

theorem good_runOn_put (htable : store.IsTable) (hgood : Good store state) {kind : KeyKind}
    {id : KeyId} {text : String} (htext : kind.Holds id text) :
    Good store (runOn (put store kind id text) state world).1.2 := by
  rw [runOn_put]
  cases hput : store.put kind id text state with
  | error error => exact hgood
  | ok after => exact hgood.put htable htext hput

/-- A key pair is put under its own fingerprint, its two texts one after the other. -/
theorem good_storeKeyPair (htable : store.IsTable) (hgood : Good store state) (pair : KeyPair) :
    Good store (runOn (storeKeyPair store pair) state world).1.2 := by
  have hpriv : KeyKind.priv.Holds pair.id pair.toPem := ⟨pair, KeyPair.ofPem_toPem pair, rfl⟩
  have hpub : KeyKind.pub.Holds pair.id pair.publicKey.toPem :=
    ⟨pair.publicKey, PublicKey.ofPem_toPem pair.publicKey, rfl⟩
  rw [storeKeyPair]
  refine runOn_bind_keeps _ (good_runOn_put htable hgood hpriv) ?_
  intro u between world' hbetween
  refine runOn_bind_keeps _ (good_runOn_put htable hbetween hpub) ?_
  intro u after world'' hafter
  exact hafter

end KeyCache

namespace Server

open Http KeyCache

/-- No request does more to the store than to have a public key written anew, under the fingerprint
that is computed from it. -/
theorem publishes_handle {store : KeyStore σ} (htable : store.IsTable) (mediator : LocalMediator)
    (request : Request) (state : σ) :
    Publishes store state (handle ⟨mediator, store⟩ request state).2 := by
  rcases handle_state ⟨mediator, store⟩ request state with hsame | ⟨key, hput⟩
  · rw [hsame]
    exact .refl state
  · exact .put htable ⟨key, PublicKey.ofPem_toPem key, rfl⟩ hput

end Server

/-! ## Whole runs -/

/-- What may happen to a cache: keys are fetched through a resolver, a key pair is stored, or
a server that keeps its keys in the same store gets a request. -/
inductive CacheStep (ρ : Type) where
  | precache (resolver : KeyResolver (StateM ρ)) (ids : List KeyId)
  | storeKeyPair (pair : KeyPair)
  | serve (mediator : LocalMediator) (request : Http.Request)

namespace CacheStep

/-- A step that brings no private key. -/
def IsPublic : CacheStep ρ → Prop
  | .storeKeyPair _ => False
  | .precache _ _ | .serve _ _ => True

/-- What a step leaves of store and world, however it ends. -/
def perform (store : KeyStore σ) : CacheStep ρ → σ × ρ → σ × ρ
  | .precache resolver ids, (state, world) =>
    let run := KeyCache.runOn (KeyCache.precache store resolver.apart ids) state world
    (run.1.2, run.2)
  | .storeKeyPair pair, (state, world) =>
    let run := KeyCache.runOn (KeyCache.storeKeyPair store pair) state world
    (run.1.2, run.2)
  | .serve mediator request, (state, world) =>
    ((Server.handle ⟨mediator, store⟩ request state).2, world)

/-- What steps leave of store and world, one after the other. -/
def performAll (store : KeyStore σ) (steps : List (CacheStep ρ)) (start : σ × ρ) : σ × ρ :=
  steps.foldl (fun situation step ↦ step.perform store situation) start

variable {store : KeyStore σ} {step : CacheStep ρ}

theorem publishes_perform (htable : store.IsTable) (hpublic : step.IsPublic) (start : σ × ρ) :
    KeyCache.Publishes store start.1 (step.perform store start).1 := by
  cases step with
  | precache resolver ids => exact (KeyCache.covers_precache htable ids).publishes
  | storeKeyPair pair => exact hpublic.elim
  | serve mediator request => exact Server.publishes_handle htable mediator request start.1

theorem good_perform (htable : store.IsTable) {start : σ × ρ}
    (hgood : KeyCache.Good store start.1) : KeyCache.Good store (step.perform store start).1 := by
  cases step with
  | storeKeyPair pair => exact KeyCache.good_storeKeyPair htable hgood pair
  | precache resolver ids =>
    have hpublic : (precache resolver ids).IsPublic := trivial
    exact (publishes_perform htable hpublic start).good hgood
  | serve mediator request =>
    have hpublic : (serve mediator request : CacheStep ρ).IsPublic := trivial
    exact (publishes_perform htable hpublic start).good hgood

theorem good_performAll (htable : store.IsTable) (steps : List (CacheStep ρ)) {start : σ × ρ}
    (hgood : KeyCache.Good store start.1) :
    KeyCache.Good store (performAll store steps start).1 := by
  induction steps generalizing start with
  | nil => exact hgood
  | cons step steps ih => exact ih (good_perform htable hgood)

end CacheStep

namespace KeyCache

/-- **No resolver can poison the cache.** A good cache is good after every step of every run, in
which resolvers may answer anything, and no step but the storing of a key pair changes a private
text. Once a fetch of ids has come to its end, each of them is found with a key of its fingerprint,
and no encryption for these ids lacks a key. -/
theorem stays_good {store : KeyStore σ} (htable : store.IsTable) {state : σ}
    (hgood : Good store state) (world : ρ) :
    (∀ steps : List (CacheStep ρ),
      Good store (CacheStep.performAll store steps (state, world)).1) ∧
    (∀ step : CacheStep ρ, step.IsPublic → ∀ (start : σ × ρ) (id : KeyId),
      store.get .priv id (step.perform store start).1 = store.get .priv id start.1) ∧
    ∀ (resolver : KeyResolver (StateM ρ)) (ids : List KeyId) (after : σ) (world' : ρ),
      runOn (precache store resolver.apart ids) state world = ((.ok (), after), world') →
      (∀ id ∈ ids, ∃ key, lookup store after id = .ok (some key) ∧ key.id = id) ∧
      ∀ (envelope : Envelope) (entropy : EntropySource) (command : EncryptCommand),
        command.sharedKeyId ∈ ids → (∀ id ∈ command.recipientKeyIds, id ∈ ids) →
        ∀ id fault, envelope.encryptSecret entropy command (lookup store after)
          ≠ .error (.keyResolution id fault) := by
  refine ⟨fun steps ↦ CacheStep.good_performAll htable steps hgood,
    fun step hpublic start ↦ (CacheStep.publishes_perform htable hpublic start).priv, ?_⟩
  intro resolver ids after world' hrun
  have hcovers : Covers store ids state (runOn (precache store resolver.apart ids) state world) :=
    covers_precache htable ids
  rw [hrun] at hcovers
  have hfound : ∀ id ∈ ids, ∃ key, lookup store after id = .ok (some key) ∧ key.id = id := by
    intro id hid
    obtain ⟨text, hget⟩ := hcovers.present rfl id hid
    exact (hcovers.publishes.good hgood).exists_lookup_eq hget
  refine ⟨hfound, fun envelope entropy command hshared hrecipients ↦ ?_⟩
  refine Envelope.resolves_encryptSecret envelope entropy fun id hid ↦ hfound id ?_
  exact (List.mem_cons.mp hid).elim (fun heq ↦ heq ▸ hshared) (hrecipients id)

section Poisoned

open KeyPair

/-- A registry with two keys under their ids, and one of them under the id of a third. -/
def poisoned : KeyRegistry :=
  { KeyRegistry.empty with
    table := ((TextTable.empty.insert one.id one.publicKey.toPem).insert two.id
      two.publicKey.toPem).insert three.id one.publicKey.toPem }

theorem run_resolver (registry : KeyRegistry) (id : KeyId) :
    (KeyRegistry.resolver id : ExceptT ResolverError (StateM KeyRegistry) String).run.run registry
      = (registry.answer id, { registry with lookups := registry.lookups + 1 }) := by
  have hset : ∀ after : KeyRegistry,
      (MonadStateOf.set after : ExceptT ResolverError (StateM KeyRegistry) PUnit).run.run registry
        = (.ok ⟨⟩, after) := fun _ ↦ rfl
  rw [KeyRegistry.resolver, run_bind_ok _ (run_getThe registry), run_bind_ok _ (hset _)]
  rcases registry.answer id with error | text <;> rfl

theorem answer_eq_ok {registry : KeyRegistry} {id : KeyId} {text : String}
    (hheld : registry.isAbandoned = false) (hregistered : registry.table.get? id = some text) :
    registry.answer id = .ok text := by
  rw [KeyRegistry.answer, hheld, if_neg Bool.false_ne_true, hregistered]

theorem runOn_precache_registered {registry : KeyRegistry} {table : TextTable (KeyKind × KeyId)}
    {pair : KeyPair} (ids : List KeyId) (hmissing : table.get? (.pub, pair.id) = none)
    (hanswer : registry.answer pair.id = .ok pair.publicKey.toPem) :
    runOn (precache .memory KeyRegistry.resolver.apart (pair.id :: ids)) table registry
      = runOn (precache .memory KeyRegistry.resolver.apart ids)
          (table.insert (.pub, pair.id) pair.publicKey.toPem)
          { registry with lookups := registry.lookups + 1 } := by
  have hget : KeyStore.memory.get .pub pair.id table = .error (.notFound pair.id) := by
    dsimp only [KeyStore.memory]
    rw [hmissing]
  have hparse : parsePublicKey pair.id pair.publicKey.toPem = .ok pair.publicKey :=
    parsePublicKey_eq_ok_iff.mpr ⟨PublicKey.ofPem_toPem pair.publicKey, rfl⟩
  have hfetch : runOn (fetch .memory KeyRegistry.resolver.apart pair.id) table registry
      = ((.ok (), table.insert (.pub, pair.id) pair.publicKey.toPem),
          { registry with lookups := registry.lookups + 1 }) := by
    rw [runOn_fetch, run_resolver, hanswer]
    dsimp only
    rw [hparse]
    dsimp only
    rw [runOn_put]
    rfl
  rw [runOn_precache_cons, hget, hfetch]

theorem stays_good_poisoned :
    Good .memory (CacheStep.performAll .memory
      [.precache KeyRegistry.resolver [one.id, three.id, two.id], .storeKeyPair three,
        .precache KeyRegistry.resolver [three.id]] (.empty, poisoned)).1 ∧
    (∀ id, KeyStore.memory.get .priv id ((CacheStep.precache KeyRegistry.resolver
        [one.id, three.id]).perform .memory (.empty, poisoned)).1
      = KeyStore.memory.get .priv id .empty) ∧
    ∃ after world,
      runOn (precache .memory KeyRegistry.resolver.apart [one.id, two.id]) .empty poisoned
        = ((.ok (), after), world) ∧
      (∃ key, lookup .memory after two.id = .ok (some key) ∧ key.id = two.id) ∧
      ∀ id fault, Envelope.encryptSecret ⟨.labelled, Shamir.scheme⟩ (fun _ _ ↦ 7)
        ⟨"attack at dawn", one.id, [two.id], .pem⟩ (lookup .memory after)
          ≠ .error (.keyResolution id fault) := by
  have hempty : Good .memory (.empty : TextTable (KeyKind × KeyId)) := by
    intro kind id text hget
    cases hget
  have hone : poisoned.table.get? one.id = some one.publicKey.toPem := by
    rw [poisoned, TextTable.get?_insert, if_neg one_id_ne_three_id, TextTable.get?_insert,
      if_neg one_id_ne_two_id, TextTable.get?_insert, if_pos rfl]
  have htwo : poisoned.table.get? two.id = some two.publicKey.toPem := by
    rw [poisoned, TextTable.get?_insert, if_neg two_id_ne_three_id, TextTable.get?_insert,
      if_pos rfl]
  have hmissing : ((TextTable.empty : TextTable (KeyKind × KeyId)).insert
      (.pub, one.id) one.publicKey.toPem).get? (.pub, two.id) = none := by
    rw [TextTable.get?_insert, if_neg fun heq ↦ one_id_ne_two_id (Prod.mk.inj heq).2.symm,
      TextTable.get?_empty]
  have hfirst := runOn_precache_registered [two.id] (TextTable.get?_empty _) (answer_eq_ok rfl hone)
  have hsecond := @runOn_precache_registered
    { poisoned with lookups := poisoned.lookups + 1 } _ two [] hmissing (answer_eq_ok rfl htwo)
  have hrun := hfirst.trans (hsecond.trans (runOn_precache_nil _ _ _ _))
  obtain ⟨hsteps, hpriv, hprecache⟩ := stays_good KeyStore.memory_isTable hempty poisoned
  obtain ⟨hfound, hencrypt⟩ := hprecache KeyRegistry.resolver [one.id, two.id] _ _ hrun
  have hpublic : (CacheStep.precache (KeyRegistry.resolver : KeyResolver (StateM KeyRegistry))
      [one.id, three.id]).IsPublic := trivial
  refine ⟨hsteps _, hpriv _ hpublic _, _, _, hrun, hfound two.id (.tail _ (.head _)),
    hencrypt _ _ _ (.head _) ?_⟩
  exact List.forall_mem_singleton.mpr (.tail _ (.head _))

end Poisoned

end KeyCache

end DualSeal

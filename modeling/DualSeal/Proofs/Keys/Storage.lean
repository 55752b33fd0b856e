import DualSeal.Proofs.Keys.Interchange

/-!
# Key pairs survive storage

A key pair goes into a store as two texts and comes back as the pair that it was, whatever text it
was read from before: a structure of either version, with the number in fewer bytes than are
written, with its public key or without. The number is the same in both, and the rest follows from
it.

In between the store may be used in any way that puts nothing under the id of the pair. Texts are
put and looked up by hand, other key pairs are stored, keys are fetched and registered. A precache
may even ask for that very id, since what it finds it leaves alone. Of a store only
`KeyStore.Admits` is used, which each of the three stores has (`key_pairs_survive_storage`).
-/

namespace DualSeal

variable {σ ρ : Type}

namespace KeyCache

/-- Both texts of a key pair are in the store, under the id of the pair. -/
structure Stores (store : KeyStore σ) (pair : KeyPair) (state : σ) : Prop where
  priv : store.get .priv pair.id state = .ok pair.toPem
  pub : store.get .pub pair.id state = .ok pair.publicKey.toPem

namespace Stores

variable {store : KeyStore σ} {pair : KeyPair} {state after : σ} {id : KeyId} {world : ρ}

/-! ## Storing and loading -/

theorem of_storeKeyPair (htable : store.IsTable)
    (h : (storeKeyPair store pair : ExceptT KeyCacheError (StateM σ) KeyId).run.run state
      = (.ok id, after)) : id = pair.id ∧ Stores store pair after := by
  obtain ⟨hid, between, hpriv, hpub⟩ := SharedKey.of_run_storeKeyPair_eq_ok h
  have hkept : store.get .priv pair.id after = store.get .priv pair.id between :=
    htable.get_put_of_ne hpub nofun
  exact ⟨hid, hkept.trans (htable.get_put hpriv), htable.get_put hpub⟩

theorem run_loadKeyPair (h : Stores store pair state) :
    (loadKeyPair store pair.id : ExceptT KeyCacheError (StateM σ) KeyPair).run.run state
      = (.ok pair, state) := by
  rw [SharedKey.run_loadKeyPair, SharedKey.keyPair_of_get h.priv]

theorem run_loadPublicKey (h : Stores store pair state) :
    (loadPublicKey store pair.id : ExceptT KeyCacheError (StateM σ) PublicKey).run.run state
      = (.ok pair.publicKey, state) := by
  have hkey : publicKey store state pair.id = .ok pair.publicKey := by
    refine bind_eq_ok_iff.mpr ⟨pair.publicKey.toPem, mapError_eq_ok_iff.mpr h.pub, ?_⟩
    exact parsePublicKey_eq_ok_iff.mpr ⟨PublicKey.ofPem_toPem pair.publicKey, rfl⟩
  rw [loadPublicKey, run_bind_ok _ (run_getThe state), hkey]
  rfl

/-! ## What happens in between -/

theorem put (htable : store.IsTable) (h : Stores store pair state) {kind : KeyKind}
    {text : String} (hother : id ≠ pair.id) (hput : store.put kind id text state = .ok after) :
    Stores store pair after := by
  have hkept : ∀ kind', store.get kind' pair.id after = store.get kind' pair.id state := fun kind' ↦
    htable.get_put_of_ne hput fun heq ↦ hother (Prod.mk.inj heq).2.symm
  exact ⟨(hkept .priv).trans h.priv, (hkept .pub).trans h.pub⟩

theorem runOn_put (htable : store.IsTable) (h : Stores store pair state) (kind : KeyKind)
    (text : String) (hother : id ≠ pair.id) :
    Stores store pair (runOn (KeyCache.put store kind id text) state world).1.2 := by
  rw [KeyCache.runOn_put]
  rcases hput : store.put kind id text state with error | after
  · exact h
  · exact h.put htable hother hput

theorem runOn_storeKeyPair (htable : store.IsTable) (h : Stores store pair state)
    {other : KeyPair} (hother : other.id ≠ pair.id) :
    Stores store pair (runOn (storeKeyPair store other) state world).1.2 := by
  refine runOn_bind_keeps _ (h.runOn_put htable .priv other.toPem hother) ?_
  intro u between world' hbetween
  refine runOn_bind_keeps _ (hbetween.runOn_put htable .pub other.publicKey.toPem hother) ?_
  exact fun _ _ _ hlast ↦ hlast

theorem runOn_fetch (htable : store.IsTable) (h : Stores store pair state)
    (resolver : KeyResolver (StateM ρ)) (hother : id ≠ pair.id) :
    Stores store pair (runOn (fetch store resolver.apart id) state world).1.2 := by
  rw [KeyCache.runOn_fetch]
  rcases (resolver id).run.run world with ⟨error | text, world'⟩
  · exact h
  dsimp only
  rcases parsePublicKey id text with error | key
  · exact h
  · exact h.runOn_put htable .pub text hother

/-- **A precache**, by induction on the ids. The id of the pair is found, and so it is not
fetched. -/
theorem runOn_precache (htable : store.IsTable) (h : Stores store pair state)
    (resolver : KeyResolver (StateM ρ)) (ids : List KeyId) :
    Stores store pair (runOn (precache store resolver.apart ids) state world).1.2 := by
  induction ids generalizing state world with
  | nil => exact h
  | cons id ids ih =>
    rw [runOn_precache_cons]
    rcases hget : store.get .pub id state with error | text
    · have hother : id ≠ pair.id := by
        rintro rfl
        cases hget.symm.trans h.pub
      have hfetched : Stores store pair
          (runOn (fetch store resolver.apart id) state world).1.2 :=
        h.runOn_fetch htable resolver hother
      rcases error with missing | fault | fault
      · dsimp only
        rcases hrun : runOn (fetch store resolver.apart id) state world
          with ⟨⟨error | _, after⟩, world'⟩
        all_goals rw [hrun] at hfetched
        · exact hfetched
        · exact ih hfetched
      · exact h
      · exact h
    · exact ih h

theorem handle (htable : store.IsTable) (h : Stores store pair state) (mediator : LocalMediator)
    {request : Http.Request}
    (hother : ∀ key, Server.registeredKey? request = some key → key.id ≠ pair.id) :
    Stores store pair (Server.handle ⟨mediator, store⟩ request state).2 := by
  rcases hregistered : Server.registeredKey? request with _ | key
  · rw [Server.handle_of_not_registers hregistered]
    exact h
  · rw [Server.handle_of_registers hregistered]
    rcases hput : store.put .pub key.id key.toPem state with error | after
    · exact h
    · exact h.put htable (hother key hregistered) hput

end Stores

end KeyCache

/-! ## Runs -/

/-- A use of a store: a call by hand, or whatever may happen to a cache over it. Loading is not
among them, since it changes nothing. -/
inductive StoreUse (ρ : Type) where
  | direct (call : StoreCall)
  | cached (step : CacheStep ρ)

namespace StoreUse

open KeyCache (Stores)

/-- A use that puts nothing under an id. -/
def Spares (id : KeyId) : StoreUse ρ → Prop
  | direct (.put _ other _) => other ≠ id
  | direct (.get _ _) => True
  | cached (.precache _ _) => True
  | cached (.storeKeyPair other) => other.id ≠ id
  | cached (.serve _ request) => ∀ key, Server.registeredKey? request = some key → key.id ≠ id

/-- What a use leaves of store and world, however it ends. -/
def perform (store : KeyStore σ) : StoreUse ρ → σ × ρ → σ × ρ
  | direct call, (state, world) => ((store.perform state call).2, world)
  | cached step, start => step.perform store start

/-- What uses leave of store and world, one after the other. -/
def performAll (store : KeyStore σ) (uses : List (StoreUse ρ)) (start : σ × ρ) : σ × ρ :=
  uses.foldl (fun situation use ↦ use.perform store situation) start

variable {store : KeyStore σ} {pair : KeyPair} {start : σ × ρ}

/-- **One use** that spares the id of a stored key pair leaves the pair in the store. -/
theorem stores_perform (htable : store.IsTable) (h : Stores store pair start.1)
    {use : StoreUse ρ} (hspares : use.Spares pair.id) :
    Stores store pair (use.perform store start).1 := by
  rcases use with (⟨kind, id, text⟩ | ⟨kind, id⟩) | (⟨resolver, ids⟩ | other | ⟨mediator, request⟩)
  · have hput : Stores store pair (store.perform start.1 (.put kind id text)).2 := by
      rw [KeyStore.perform]
      rcases hput : store.put kind id text start.1 with error | after
      · exact h
      · exact h.put htable hspares hput
    exact hput
  · exact h
  · exact h.runOn_precache htable resolver ids
  · exact h.runOn_storeKeyPair htable hspares
  · exact h.handle htable mediator hspares

theorem stores_performAll (htable : store.IsTable) {uses : List (StoreUse ρ)}
    (h : Stores store pair start.1) (hspares : ∀ use ∈ uses, use.Spares pair.id) :
    Stores store pair (performAll store uses start).1 := by
  induction uses generalizing start with
  | nil => exact h
  | cons use uses ih =>
    obtain ⟨huse, huses⟩ := List.forall_mem_cons.mp hspares
    exact ih (stores_perform htable h huse) huses

end StoreUse

namespace KeyCache

/-- Where texts can be put, a key pair can be stored, if nothing keeps its texts from being looked
up. -/
theorem exists_storeKeyPair {store : KeyStore σ} {Sound : σ → Prop} (hadmits : store.Admits Sound)
    {pair : KeyPair} {before : σ} (hsound : Sound before)
    (hfound : ∀ kind, (∃ text, store.get kind pair.id before = .ok text) ∨
      store.get kind pair.id before = .error (.notFound pair.id)) :
    ∃ stored, (storeKeyPair store pair : ExceptT KeyCacheError (StateM σ) KeyId).run.run before
      = (.ok pair.id, stored) := by
  obtain ⟨between, hpriv⟩ := hadmits.exists_put hsound (hfound .priv) pair.toPem
  have hother : store.get .pub pair.id between = store.get .pub pair.id before :=
    hadmits.isTable.get_put_of_ne hpriv nofun
  have hpublic := hfound .pub
  rw [← hother] at hpublic
  obtain ⟨stored, hpub⟩ :=
    hadmits.exists_put (hadmits.sound_put hsound hpriv) hpublic pair.publicKey.toPem
  exact ⟨stored, SharedKey.run_storeKeyPair_of_put hpriv hpub⟩

/-- A store that keeps key pairs. In the states in which it is sound, a key pair is stored if each
of its texts can be looked up, be it there or missing. A key pair that was stored is loaded under
the id that was given for it, and so is its public key, after any uses that put nothing under that
id. -/
structure KeepsKeyPairs (store : KeyStore σ) (Sound : σ → Prop) : Prop where
  stores : ∀ (pair : KeyPair) (before : σ), Sound before →
    (∀ kind, (∃ text, store.get kind pair.id before = .ok text) ∨
      store.get kind pair.id before = .error (.notFound pair.id)) →
    ∃ stored, (storeKeyPair store pair : ExceptT KeyCacheError (StateM σ) KeyId).run.run before
      = (.ok pair.id, stored)
  loads : ∀ (pair : KeyPair) (id : KeyId) (before stored : σ),
    (storeKeyPair store pair : ExceptT KeyCacheError (StateM σ) KeyId).run.run before
      = (.ok id, stored) →
    id = pair.id ∧ ∀ {ρ : Type} (uses : List (StoreUse ρ)) (world world' : ρ) (after : σ),
      (∀ use ∈ uses, use.Spares id) →
      StoreUse.performAll store uses (stored, world) = (after, world') →
      (loadKeyPair store id : ExceptT KeyCacheError (StateM σ) KeyPair).run.run after
        = (.ok pair, after) ∧
      (loadPublicKey store id : ExceptT KeyCacheError (StateM σ) PublicKey).run.run after
        = (.ok pair.publicKey, after)

theorem keepsKeyPairs {store : KeyStore σ} {Sound : σ → Prop} (hadmits : store.Admits Sound) :
    KeepsKeyPairs store Sound where
  stores _ _ hsound hfound := exists_storeKeyPair hadmits hsound hfound
  loads pair id before stored hstore := by
    obtain ⟨rfl, hstored⟩ := Stores.of_storeKeyPair hadmits.isTable hstore
    refine ⟨rfl, fun uses world world' after hspares hrun ↦ ?_⟩
    have hafter : Stores store pair (StoreUse.performAll store uses (stored, world)).1 :=
      StoreUse.stores_performAll hadmits.isTable hstored hspares
    rw [hrun] at hafter
    exact ⟨hafter.run_loadKeyPair, hafter.run_loadPublicKey⟩

/-- **Key pairs survive storage.** A text is read as a key pair exactly when the structure in its
block is one of that pair's: of version 0 or 1, with the pair's number in 24 to 32 bytes, and with
no public key inside or the pair's. The text that is written for such a pair is read as the same
pair. And each of the three stores keeps key pairs, a directory as long as it is there. -/
theorem key_pairs_survive_storage :
    (∀ (text : String) (pair : KeyPair), KeyPair.ofPem text = .ok pair ↔
      ∃ der, readKeyBlock KeyPair.label text = .ok der ∧ pair.Form der) ∧
    (∀ (text : String) (pair : KeyPair), KeyPair.ofPem text = .ok pair →
      KeyPair.ofPem pair.toPem = .ok pair) ∧
    KeepsKeyPairs .memory (fun _ ↦ True) ∧ KeepsKeyPairs .named (fun _ ↦ True) ∧
    ∀ dir, KeepsKeyPairs (.directory dir) fun tree ↦ ∃ above, tree.enter [] dir.steps = .ok above :=
  ⟨fun _ _ ↦ KeyPair.ofPem_eq_ok_iff, fun _ pair _ ↦ pair.ofPem_toPem,
    keepsKeyPairs KeyStore.memory_admits, keepsKeyPairs KeyStore.named_admits,
    fun dir ↦ keepsKeyPairs (KeyStore.directory_admits dir)⟩

section Short

open KeyPair

/-- The number two in twenty-four bytes. -/
def shortNumber : Bytes := List.replicate 23 0 ++ [2]

/-- An inner structure with this number, and with no public key. -/
def shortInner : Bytes :=
  Der.writtenSequence [⟨Der.integerTag, [1]⟩, ⟨Der.octetStringTag, shortNumber⟩]

/-- A structure of version 1 around it, whose own public key is empty. -/
def shortDer : Bytes :=
  Der.writtenSequence [⟨Der.integerTag, [1]⟩, ⟨Der.sequenceTag, KeyType.p256.algorithm⟩,
    ⟨Der.octetStringTag, shortInner⟩, ⟨0x81, [0]⟩]

theorem form_shortDer : two.Form shortDer := by
  have hinner : Der.sequence? shortInner
      = some [⟨Der.integerTag, [1]⟩, ⟨Der.octetStringTag, shortNumber⟩] := by
    decide +kernel
  have houter : Der.sequence? shortDer
      = some [⟨Der.integerTag, [1]⟩, ⟨Der.sequenceTag, KeyType.p256.algorithm⟩,
        ⟨Der.octetStringTag, shortInner⟩, ⟨0x81, [0]⟩] := by
    decide +kernel
  have htail : two.Tail [] := .unkeyed rfl List.dropWhile_nil
  exact .mk houter (.inr rfl) (by decide) (.mk hinner (by decide) (by decide) htail)

/-- What happens to a cache: the key itself is asked for, and one that is answered with another; a
third is stored; and something that is no key is put in its place by hand. -/
def bustle : List (StoreUse KeyRegistry) :=
  [.cached (.precache KeyRegistry.resolver [two.id, three.id]), .cached (.storeKeyPair one),
    .direct (.put .priv one.id "no key"), .direct (.get .priv two.id)]

theorem key_pairs_survive_storage_short :
    KeyPair.ofPem (Pem.encodeText KeyPair.label shortDer) = .ok two ∧
    KeyPair.ofPem two.toPem = .ok two ∧
    ∃ stored,
      (storeKeyPair .memory two :
        ExceptT KeyCacheError (StateM (TextTable (KeyKind × KeyId))) KeyId).run.run .empty
        = (.ok two.id, stored) ∧
      let after := (StoreUse.performAll .memory bustle (stored, poisoned)).1
      (loadKeyPair .memory two.id :
        ExceptT KeyCacheError (StateM (TextTable (KeyKind × KeyId))) KeyPair).run.run after
        = (.ok two, after) ∧
      (loadPublicKey .memory two.id :
        ExceptT KeyCacheError (StateM (TextTable (KeyKind × KeyId))) PublicKey).run.run after
        = (.ok two.publicKey, after) := by
  obtain ⟨haccepted, hagain, hmemory, -, -⟩ := key_pairs_survive_storage
  have hblock : readKeyBlock KeyPair.label (Pem.encodeText KeyPair.label shortDer) = .ok shortDer :=
    readKeyBlock_encodeText (by decide +kernel) (by decide +kernel) (List.cons_ne_nil _ _)
  have hshort := (haccepted _ two).mpr ⟨shortDer, hblock, form_shortDer⟩
  have hspares : ∀ use ∈ bustle, use.Spares two.id := by
    simp [bustle, StoreUse.Spares, one_id_ne_two_id]
  obtain ⟨stored, hstore⟩ := hmemory.stores two .empty trivial fun kind ↦ .inr rfl
  obtain ⟨-, hloads⟩ := hmemory.loads two two.id .empty stored hstore
  exact ⟨hshort, hagain _ two hshort, stored, hstore,
    hloads bustle poisoned _ _ hspares Prod.mk.eta.symm⟩

end Short

end KeyCache

end DualSeal

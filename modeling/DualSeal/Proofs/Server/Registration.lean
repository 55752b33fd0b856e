import DualSeal.Proofs.Keys.Remote
import DualSeal.Proofs.Keys.Text
import DualSeal.Proofs.Server.Requests

/-!
# What a server shows is what it was told

A server that starts with canonical texts has nothing else in its store after any requests: under an
id that the store can look up there is a key of that fingerprint, which was there to begin with or
was brought by a request, and there is one as soon as there is such a key (`Reached`). The requests
may come in any order and be anything. Whoever asks for the key, by a request or as a client, is
told of the same one, and where shards are opened, nothing that happened before counts
(`answers_serve`).

Keys are told apart by their fingerprints. Two keys that shared one would take each other's place,
and this is the only way in which a key that was brought can be missing.
-/

namespace DualSeal

open Http

variable {σ : Type}

/-- Every public text is the canonical text of a key, under its fingerprint. -/
def KeyStore.IsCanonical (store : KeyStore σ) (state : σ) : Prop :=
  ∀ id text, store.get .pub id state = .ok text → ∃ key : PublicKey, key.id = id ∧ text = key.toPem

namespace Server

/-! ## Runs -/

/-- The store after requests. -/
def serve (server : Server σ) (requests : List Request) (state : σ) : σ :=
  requests.foldl (fun state request ↦ (handle server request state).2) state

/-- One of the requests brings the key to be registered. -/
def Brought (requests : List Request) (key : PublicKey) : Prop :=
  ∃ request ∈ requests, registeredKey? request = some key

/-- The key is in the store to begin with, or one of the requests brings it. -/
def Known (store : KeyStore σ) (start : σ) (requests : List Request) (key : PublicKey) : Prop :=
  store.get .pub key.id start = .ok key.toPem ∨ Brought requests key

/-- What the store may have come to after requests. -/
structure Reached (store : KeyStore σ) (Sound : σ → Prop) (start : σ) (requests : List Request)
    (state : σ) : Prop where
  sound : Sound state
  priv : ∀ id, store.get .priv id state = store.get .priv id start
  pub : ∀ id, store.get .pub id state = store.get .pub id start ∨
    ∃ key, Brought requests key ∧ key.id = id ∧ store.get .pub id state = .ok key.toPem
  brought : ∀ key, Brought requests key → store.Accepts start key.id →
    ∃ text, store.get .pub key.id state = .ok text
  refused : ∀ id fault, store.get .pub id start = .error (.invalidKeyId fault) →
    store.get .pub id state = .error (.invalidKeyId fault)

variable {server : Server σ} {Sound : σ → Prop} {start state : σ} {requests : List Request}
  {request : Request}

theorem Brought.append_left {key : PublicKey} (h : Brought requests key) (more : List Request) :
    Brought (requests ++ more) key := by
  obtain ⟨request, hrequest, hkey⟩ := h
  exact ⟨request, List.mem_append_left _ hrequest, hkey⟩

theorem brought_append_singleton_iff {key : PublicKey} :
    Brought (requests ++ [request]) key ↔
      Brought requests key ∨ registeredKey? request = some key := by
  simp only [Brought, List.mem_append, List.mem_singleton, or_and_right, exists_or,
    exists_eq_left]

namespace Reached

theorem accepts {store : KeyStore σ} (h : Reached store Sound start requests state) {id : KeyId}
    (haccepts : store.Accepts start id) : store.Accepts state id := by
  rcases h.pub id with hsame | ⟨key, -, -, hget⟩
  · rwa [KeyStore.Accepts, hsame]
  · exact .inl ⟨_, hget⟩

/-- Nothing is written when no key is brought that the store could take. -/
theorem of_not_accepts {store : KeyStore σ} (h : Reached store Sound start requests state)
    (hbrings : ∀ key, registeredKey? request = some key → ¬store.Accepts start key.id) :
    Reached store Sound start (requests ++ [request]) state where
  sound := h.sound
  priv := h.priv
  pub id := (h.pub id).imp_right fun ⟨key, hkey, hid, hget⟩ ↦ ⟨key, hkey.append_left _, hid, hget⟩
  brought key hkey haccepts := by
    rcases brought_append_singleton_iff.mp hkey with hkey | hkey
    · exact h.brought key hkey haccepts
    · exact absurd haccepts (hbrings key hkey)
  refused := h.refused

theorem put {store : KeyStore σ} (hserves : store.Serves Sound)
    (h : Reached store Sound start requests state) {key : PublicKey} {after : σ}
    (hbrings : registeredKey? request = some key)
    (hput : store.put .pub key.id key.toPem state = .ok after) :
    Reached store Sound start (requests ++ [request]) after := by
  have hfound : store.get .pub key.id after = .ok key.toPem := hserves.isTable.get_put hput
  have hpriv : ∀ id, store.get .priv id after = store.get .priv id state :=
    fun id ↦ hserves.isTable.get_put_of_ne hput fun heq ↦ nomatch (Prod.mk.inj heq).1
  have hpub : ∀ id, id ≠ key.id → store.get .pub id after = store.get .pub id state :=
    fun id hid ↦ hserves.isTable.get_put_of_ne hput fun heq ↦ hid (Prod.mk.inj heq).2
  constructor
  case sound => exact hserves.sound_put h.sound hput
  case priv => exact fun id ↦ (hpriv id).trans (h.priv id)
  case pub =>
    intro id
    by_cases hid : id = key.id
    · rw [hid]
      exact .inr ⟨key, brought_append_singleton_iff.mpr (.inr hbrings), rfl, hfound⟩
    · rw [hpub id hid]
      exact (h.pub id).imp_right fun ⟨other, hother, heq, hget⟩ ↦
        ⟨other, hother.append_left _, heq, hget⟩
  case brought =>
    intro other hother haccepts
    by_cases hid : other.id = key.id
    · rw [hid]
      exact ⟨_, hfound⟩
    · rw [hpub _ hid]
      rcases brought_append_singleton_iff.mp hother with hother | hother
      · exact h.brought other hother haccepts
      · obtain rfl := Option.some.inj (hbrings.symm.trans hother)
        exact absurd rfl hid
  case refused =>
    intro id fault hrefused
    have hid : id ≠ key.id := by
      intro heq
      rw [← heq] at hput
      exact hserves.put_ne_ok (h.refused id fault hrefused) _ _ hput
    rw [hpub id hid]
    exact h.refused id fault hrefused

/-- **One request.** -/
theorem handle (hserves : server.store.Serves Sound)
    (h : Reached server.store Sound start requests state) (request : Request) :
    Reached server.store Sound start (requests ++ [request])
      (Server.handle server request state).2 := by
  rcases hbrings : registeredKey? request with _ | key
  · rw [handle_of_not_registers hbrings]
    refine h.of_not_accepts fun key hkey ↦ ?_
    rw [hbrings] at hkey
    cases hkey
  · rw [handle_of_registers hbrings]
    rcases hput : server.store.put .pub key.id key.toPem state with error | after
    · -- The store could not have failed to take the key under an id that it can look up.
      refine h.of_not_accepts fun other hother haccepts ↦ ?_
      obtain rfl := Option.some.inj (hbrings.symm.trans hother)
      obtain ⟨after, hafter⟩ := hserves.exists_put h.sound (h.accepts haccepts) key.toPem
      rw [hput] at hafter
      cases hafter
    · exact h.put hserves hbrings hput

end Reached

/-- **A run.** -/
theorem reached_serve (hserves : server.store.Serves Sound) (hsound : Sound start)
    (requests : List Request) :
    Reached server.store Sound start requests (server.serve requests start) := by
  induction requests using List.reverseRecOn with
  | nil =>
    refine ⟨hsound, fun _ ↦ rfl, fun _ ↦ .inl rfl, ?_, fun _ _ h ↦ h⟩
    rintro key ⟨request, hrequest, -⟩
    cases hrequest
  | append_singleton requests request ih =>
    rw [serve, List.foldl_append]
    exact ih.handle hserves request

/-! ## Answers -/

theorem decrypt_of_ne {mediator : LocalMediator} {asked : MediatorRequest}
    (hbody : readBody Api.readRequest request = .ok asked)
    (hforeign : asked.keyId ≠ mediator.sharedKeyId) :
    decrypt mediator request
      = .ofText 403 (LocalMediatorError.foreignKey asked.keyId).message := by
  have hopen : mediator.openShard asked = .error (.foreignKey asked.keyId) := if_pos hforeign
  rw [decrypt_of_readBody_eq_ok hbody, hopen, openedResponse, refusalCode]

/-- What there is to be shown under an id: a known key of that fingerprint, if there is one. -/
structure Finds (store : KeyStore σ) (start : σ) (requests : List Request) (id : KeyId)
    (found : Option PublicKey) : Prop where
  known : ∀ key ∈ found, Known store start requests key ∧ key.id = id
  isSome : ∀ key, Known store start requests key → key.id = id → found.isSome

theorem finds_some {store : KeyStore σ} {key : PublicKey} {id : KeyId}
    (hkey : Known store start requests key) (hid : key.id = id) :
    Finds store start requests id (some key) where
  known other hother := by
    obtain rfl := Option.mem_some.mp hother
    exact ⟨hkey, hid⟩
  isSome _ _ _ := rfl

theorem Reached.exists_finds {store : KeyStore σ} (h : Reached store Sound start requests state)
    (hcanonical : store.IsCanonical start) {id : KeyId} (haccepts : store.Accepts start id) :
    ∃ found, Finds store start requests id found ∧
      (∀ key ∈ found, store.get .pub id state = .ok key.toPem) ∧
      (found = none → store.get .pub id state = .error (.notFound id)) := by
  have hsome : ∀ key : PublicKey, Known store start requests key → key.id = id →
      store.get .pub id state = .ok key.toPem →
      ∃ found, Finds store start requests id found ∧
        (∀ key ∈ found, store.get .pub id state = .ok key.toPem) ∧
        (found = none → store.get .pub id state = .error (.notFound id)) := by
    intro key hkey hid hget
    refine ⟨some key, finds_some hkey hid, fun other hother ↦ ?_, nofun⟩
    obtain rfl := Option.mem_some.mp hother
    exact hget
  rcases h.pub id with hsame | ⟨key, hkey, hid, hget⟩
  · rcases haccepts with ⟨text, htext⟩ | hmissing
    · obtain ⟨key, hid, rfl⟩ := hcanonical id text htext
      exact hsome key (.inl (hid ▸ htext)) hid (hsame.trans htext)
    · refine ⟨none, ⟨fun key hkey ↦ ?_, fun key hkey hid ↦ ?_⟩, fun key hkey ↦ ?_,
        fun _ ↦ hsame.trans hmissing⟩
      · cases hkey
      · -- A key of this fingerprint was not there at the start, and would be if it was brought.
        rcases hkey with hkey | hkey
        · rw [hid, hmissing] at hkey
          cases hkey
        · obtain ⟨text, htext⟩ := h.brought key hkey (hid ▸ .inr hmissing)
          rw [hid, hsame, hmissing] at htext
          cases htext
      · cases hkey
  · exact hsome key (.inr hkey) hid hget

/-- A key that is brought again is written where it stands, unless another key of its fingerprint
does. -/
theorem Reached.handle_again (hserves : server.store.Serves Sound)
    (h : Reached server.store Sound start requests state)
    (hcanonical : server.store.IsCanonical start) {key : PublicKey}
    (hbrings : registeredKey? request = some key)
    (hkey : Known server.store start requests key) (haccepts : server.store.Accepts start key.id) :
    (∀ kind id, server.store.get kind id (Server.handle server request state).2
      = server.store.get kind id state) ∨
    ∃ other, Known server.store start requests other ∧ other.id = key.id ∧ other ≠ key := by
  rw [handle_of_registers hbrings]
  rcases hput : server.store.put .pub key.id key.toPem state with error | after
  · exact .inl fun _ _ ↦ rfl
  obtain ⟨found, hfinds, hsome, -⟩ := h.exists_finds hcanonical haccepts
  obtain ⟨other, rfl⟩ := Option.isSome_iff_exists.mp (hfinds.isSome key hkey rfl)
  obtain ⟨hother, hid⟩ := hfinds.known other rfl
  by_cases hsame : other = key
  · refine .inl fun kind id ↦ ?_
    by_cases hplace : (kind, id) = (.pub, key.id)
    · obtain ⟨rfl, rfl⟩ := Prod.mk.inj hplace
      have hbefore := hsome other rfl
      rw [hsame] at hbefore
      exact (hserves.isTable.get_put hput).trans hbefore.symm
    · exact hserves.isTable.get_put_of_ne hput hplace
  · exact .inr ⟨other, hother, hid, hsame⟩

/-- The answer that shows a key under an id, or tells that there is none. -/
def keyResponse (id : KeyId) : Option PublicKey → Response
  | some key => .ofJson 200 (Api.keyDocument ⟨id, key.toPem⟩)
  | none => .ofText 404 (KeyCacheError.store (.notFound id)).message

/-- What a client gets that asks for the key under an id. -/
def keyText (id : KeyId) : Option PublicKey → Except ResolverError String
  | some key => .ok key.toPem
  | none => .error (.notFound id)

theorem textIn_keyResponse (target : Url) (id : KeyId) (found : Option PublicKey) :
    RemoteKeys.textIn target id (.answered (keyResponse id found)) = keyText id found := by
  rcases found with _ | key
  · exact RemoteKeys.textIn_of_code_eq rfl
  · exact RemoteKeys.textIn_ofJson target id ⟨id, key.toPem⟩

/-- What a server owes, in a state that it has come to by requests. -/
structure Answers (server : Server σ) (start : σ) (requests : List Request) (state : σ) :
    Prop where
  /-- Under an id that the store can look up, a request and a client are told of the same key. -/
  shows : ∀ id, server.store.Accepts start id →
    ∃ found, Finds server.store start requests id found ∧
      (∀ request : Request, request.method = "GET" → askedId? request = some id →
        (handle server request state).1 = keyResponse id found) ∧
      ∀ {spelling : NameSpelling} (config : ClientConfig) (url : ServerUrl spelling)
        (carried : List Request),
        config.serverUrl = url.text → id.fileFault? = none →
        (url.on (Api.keyPath id)).isSendable = true →
        ((RemoteKeys.resolver (server.transport spelling) config id).run.run ⟨carried, state⟩).1
          = keyText id found
  refuses : ∀ id fault, server.store.get .pub id start = .error (.invalidKeyId fault) →
    ∀ request : Request, request.method = "GET" → askedId? request = some id →
      (handle server request state).1.status.code = 400
  /-- A request leaves the store as it is, unless it is told that something was created. -/
  stays : ∀ request, (handle server request state).1.status.code ≠ 201 →
    (handle server request state).2 = state
  priv : ∀ request id, server.store.get .priv id (handle server request state).2
    = server.store.get .priv id state
  /-- A key that is brought again changes nothing, unless another key of its fingerprint is
  known. -/
  again : ∀ request key, registeredKey? request = some key →
    Known server.store start requests key → server.store.Accepts start key.id →
    (∀ kind id, server.store.get kind id (handle server request state).2
      = server.store.get kind id state) ∨
    ∃ other, Known server.store start requests other ∧ other.id = key.id ∧ other ≠ key
  /-- Any server with the shared key, in any state, opens shards alike. -/
  opens : ∀ request : Request, request.method = "POST" →
    Route.ofPath? (pathOf request.target) = some .decrypt →
    ∀ {τ : Type} (other : Server τ) (state' : τ), other.mediator = server.mediator →
      (handle server request state).1 = (handle other request state').1
  forbids : ∀ request : Request, request.method = "POST" →
    Route.ofPath? (pathOf request.target) = some .decrypt →
    ∀ asked, readBody Api.readRequest request = .ok asked →
      asked.keyId ≠ server.mediator.sharedKeyId →
      (handle server request state).1.status.code = 403

/-- **What a server shows is what it was told.** -/
theorem answers_serve (hserves : server.store.Serves Sound) (hsound : Sound start)
    (hcanonical : server.store.IsCanonical start) (requests : List Request) :
    server.Answers start requests (server.serve requests start) := by
  have hreached := reached_serve hserves hsound requests
  generalize server.serve requests start = state at hreached
  constructor
  case shows =>
    intro id haccepts
    obtain ⟨found, hfinds, hsome, hnone⟩ := hreached.exists_finds hcanonical haccepts
    have hshown : ∀ request : Request, request.method = "GET" → askedId? request = some id →
        (handle server request state).1 = keyResponse id found := by
      intro request hmethod hasked
      rw [handle_of_asked hmethod hasked, showKey]
      rcases found with _ | key
      · rw [hnone rfl]
        rfl
      · rw [hsome key rfl]
        rfl
    refine ⟨found, hfinds, hshown, fun config url carried hurl hfault hsendable ↦ ?_⟩
    rw [RemoteKeys.run_resolver hurl hfault hsendable,
      hshown ⟨"GET", Api.keyPath id, none, []⟩ rfl (askedId?_keyPath hfault rfl),
      textIn_keyResponse]
  case refuses =>
    intro id fault hrefused request hmethod hasked
    rw [handle_of_asked hmethod hasked, showKey, hreached.refused id fault hrefused]
    rfl
  case stays =>
    intro request hcode
    rcases hbrings : registeredKey? request with _ | key
    · exact handle_of_not_registers hbrings
    · rw [handle_of_registers hbrings] at hcode ⊢
      rcases hput : server.store.put .pub key.id key.toPem state with error | after
      · rfl
      · rw [hput] at hcode
        exact absurd rfl hcode
  case priv =>
    intro request id
    exact ((hreached.handle hserves request).priv id).trans (hreached.priv id).symm
  case again =>
    intro request key hbrings hkey haccepts
    exact hreached.handle_again hserves hcanonical hbrings hkey haccepts
  case opens =>
    intro request hmethod hroute τ other state' hmediator
    rw [handle_of_decrypt hmethod hroute, handle_of_decrypt hmethod hroute, hmediator]
  case forbids =>
    intro request hmethod hroute asked hbody hforeign
    rw [handle_of_decrypt hmethod hroute, decrypt_of_ne hbody hforeign]
    rfl

section Registered

open KeyPair

/-- The document that registers a key. -/
def registration (key : PublicKey) : Bytes :=
  Utf8.encodeString (Json.writeRecord [("public_key_pem", key.toPem)])

theorem registeredKey?_registration {key : PublicKey}
    (hlength : (registration key).length ≤ bodyLimit) :
    registeredKey? ⟨"POST", Api.keysPath, some jsonType, registration key⟩ = some key := by
  have hroute : Route.ofPath? (pathOf Api.keysPath) = some .keys := by decide +kernel
  have hread : Api.readRegistration (registration key) = .ok key.toPem := by
    have hrecord := Json.readRecord_writeRecord [("public_key_pem", key.toPem)] (by simp)
    rw [List.map_cons, List.map_nil] at hrecord
    rw [Api.readRegistration, registration, hrecord]
    rfl
  exact registeredKey?_eq_some_iff.mpr
    ⟨rfl, hroute, key.toPem, readBody_eq_ok hlength hread, PublicKey.ofPem_toPem key⟩

def localUrl : ServerUrl .bare where
  scheme := "http"
  port := 80
  written := "http".toList
  lead := "//".toList
  authority := "127.0.0.1:8600".toList
  host := "127.0.0.1:8600".toList
  slashes := 0
  scheme_mem := by decide
  written_eq := by decide
  lead_slashes := List.all_eq_true.mp (by decide)
  visible c hc := by
    have hall : "127.0.0.1:8600".toList.all
        (fun c ↦ !Url.endsHost c && decide (0x20 < c.toNat)) = true := by decide
    simpa using List.all_eq_true.mp hall c hc
  server_eq := by decide +kernel

/-- A request that registers the first of the three keys. -/
def registerOne : Request := ⟨"POST", Api.keysPath, some jsonType, registration one.publicKey⟩

theorem answers_serve_registration :
    (handle attackServer ⟨"GET", Api.keyPath one.id, none, []⟩
        (attackServer.serve [registerOne] .empty)).1
      = .ofJson 200 (Api.keyDocument ⟨one.id, one.publicKey.toPem⟩) ∧
    ((RemoteKeys.resolver (attackServer.transport .bare) .default one.id).run.run
        ⟨[], attackServer.serve [registerOne] .empty⟩).1 = .ok one.publicKey.toPem := by
  have hbrings : registeredKey? registerOne = some one.publicKey :=
    registeredKey?_registration (by decide +kernel)
  have hcanonical : attackServer.store.IsCanonical .empty := by
    intro id text hget
    cases hget
  have hanswers : attackServer.Answers .empty [registerOne]
      (attackServer.serve [registerOne] .empty) :=
    answers_serve KeyStore.memory_serves trivial hcanonical [registerOne]
  obtain ⟨found, hfinds, hshown, hasked⟩ := hanswers.shows one.id (.inr rfl)
  have hfault : one.id.fileFault? = none := KeyId.fileFault?_fingerprint _
  -- The key that was registered is known, and no other key is.
  have hone : Known attackServer.store .empty [registerOne] one.publicKey :=
    .inr ⟨registerOne, .head _, hbrings⟩
  obtain ⟨key, rfl⟩ := Option.isSome_iff_exists.mp (hfinds.isSome _ hone rfl)
  have hkey : key = one.publicKey := by
    obtain ⟨hknown, -⟩ := hfinds.known key rfl
    rcases hknown with hget | ⟨request, hrequest, hkey⟩
    · cases hget
    · rw [List.mem_singleton.mp hrequest, hbrings] at hkey
      exact (Option.some.inj hkey).symm
  rw [hkey] at hshown hasked
  exact ⟨hshown _ rfl (askedId?_keyPath hfault rfl),
    hasked .default localUrl [] rfl hfault (by decide +kernel)⟩

end Registered

end Server

end DualSeal

import DualSeal.Proofs.Outcome
import DualSeal.Server.Router

/-!
# What requests do to a store

A request that brings a public key to be registered has it written anew under its fingerprint, or is
told what went wrong (`handle_of_registers`). Every other request leaves the store as it is
(`handle_of_not_registers`), also one that asks for a key or for a shard.
-/

namespace DualSeal.Server

open Http

variable {σ : Type} {server : Server σ} {request : Request} {state : σ}

/-- The key that a request brings to be registered: it is posted to the keys, says that it is JSON,
is not too long, and is read as a document with the text of a public key. -/
def registeredKey? (request : Request) : Option PublicKey :=
  if request.method = "POST" ∧ Route.ofPath? (pathOf request.target) = some .keys then
    (readBody Api.readRegistration request).toOption.bind fun text ↦
      (PublicKey.ofPem text).toOption
  else none

theorem registeredKey?_eq_some_iff {key : PublicKey} :
    registeredKey? request = some key
      ↔ request.method = "POST" ∧ Route.ofPath? (pathOf request.target) = some .keys ∧
        ∃ text, readBody Api.readRegistration request = .ok text ∧
          PublicKey.ofPem text = .ok key := by
  rw [registeredKey?]
  split_ifs with h
  · rcases hbody : readBody Api.readRegistration request with response | text
    · simp [Except.toOption]
    · rcases hkey : PublicKey.ofPem text with error | found <;> simp [Except.toOption, h, hkey]
  · exact ⟨nofun, fun hkey ↦ absurd ⟨hkey.1, hkey.2.1⟩ h⟩

theorem handle_of_registers {key : PublicKey} (h : registeredKey? request = some key) :
    handle server request state =
      match server.store.put .pub key.id key.toPem state with
      | .ok after => (.ofJson 201 (Api.keyDocument ⟨key.id, key.toPem⟩), after)
      | .error error => (storeResponse error, state) := by
  obtain ⟨hmethod, hroute, text, hbody, hkey⟩ := registeredKey?_eq_some_iff.mp h
  have hregister : register server.store request state =
      match server.store.put .pub key.id key.toPem state with
      | .ok after => (.ofJson 201 (Api.keyDocument ⟨key.id, key.toPem⟩), after)
      | .error error => (storeResponse error, state) := by
    rw [register, hbody]
    dsimp only
    rw [hkey]
    dsimp only
    rcases server.store.put .pub key.id key.toPem state with error | after <;> rfl
  rw [handle, hroute]
  dsimp only
  rw [if_pos (by rw [hmethod]; decide), answer, hregister, if_neg (by rw [hmethod]; decide)]

theorem handle_of_not_registers (h : registeredKey? request = none) :
    (handle server request state).2 = state := by
  rw [handle]
  rcases hroute : Route.ofPath? (pathOf request.target) with _ | route
  · rfl
  dsimp only
  by_cases hmethod : request.method ∈ route.methods
  · rw [if_pos hmethod]
    change (answer server request state route).2 = state
    rcases route with _ | _ | _ | segment
    · rfl
    · rfl
    · -- A request that does not register breaks off before anything is written.
      have hpost : request.method = "POST" := List.mem_singleton.mp hmethod
      rw [registeredKey?, if_pos ⟨hpost, hroute⟩] at h
      rw [answer, register]
      rcases hbody : readBody Api.readRegistration request with response | text
      · rfl
      · rw [hbody, Except.toOption, Option.bind_some] at h
        rcases hkey : PublicKey.ofPem text with error | key
        · dsimp only
          rw [hkey]
        · rw [hkey] at h
          cases h
    · rfl
  · rw [if_neg hmethod]

/-- A request leaves the store as it was, or with one public key written under its fingerprint. -/
theorem handle_state (server : Server σ) (request : Request) (state : σ) :
    (handle server request state).2 = state ∨
      ∃ key : PublicKey,
        server.store.put .pub key.id key.toPem state = .ok (handle server request state).2 := by
  rcases h : registeredKey? request with _ | key
  · exact .inl (handle_of_not_registers h)
  · rw [handle_of_registers h]
    rcases hput : server.store.put .pub key.id key.toPem state with error | after
    · exact .inl rfl
    · exact .inr ⟨key, hput⟩

theorem handle_of_asked {id : KeyId} (hmethod : request.method = "GET")
    (hasked : askedId? request = some id) :
    handle server request state = (showKey server.store id state, state) := by
  rw [askedId?] at hasked
  rcases hroute : Route.ofPath? (pathOf request.target) with _ | route
  · rw [hroute] at hasked
    cases hasked
  rw [hroute] at hasked
  rcases route with _ | _ | _ | segment
  case key =>
    have hsegment : spelledId? segment = some id := hasked
    rw [handle, hroute]
    dsimp only
    rw [if_pos (by rw [hmethod]; exact List.mem_cons_self), answer, showSegment, hsegment,
      if_neg (by rw [hmethod]; decide)]
  all_goals cases hasked

theorem handle_of_decrypt (hmethod : request.method = "POST")
    (hroute : Route.ofPath? (pathOf request.target) = some .decrypt) :
    handle server request state = (decrypt server.mediator request, state) := by
  rw [handle, hroute]
  dsimp only
  rw [if_pos (by rw [hmethod]; exact List.mem_cons_self), answer,
    if_neg (by rw [hmethod]; decide)]

end DualSeal.Server

import DualSeal.Keys.Remote
import DualSeal.Proofs.Http.Url
import DualSeal.Proofs.Json.Record
import DualSeal.Proofs.Keys.Store
import DualSeal.Proofs.Mediator.Agreement
import DualSeal.Server.Router

/-!
# Keys from a server

A client asks for a key under the server's URL, the keys' path and the key's id. Where the id could
name a file, as fingerprints do, each of its characters stands for itself in a URL, so that the
server is asked for that very id (`callable_keyPath`, `askedId?_keyPath`), and what it shows is what
the client gets (`run_resolver`).
-/

namespace DualSeal

open Http

/-! ## Ids in URLs -/

namespace KeyId

theorem toNat_lt_of_isFileChar {c : Char} (h : isFileChar c = true) : c.toNat < 0x80 := by
  rw [isFileChar, Bool.or_eq_true, Bool.or_eq_true, decide_eq_true_eq, decide_eq_true_eq] at h
  rcases h with (halphanum | rfl) | rfl
  · change (decide (c.val ≥ 65 ∧ c.val ≤ 90) || (c.val ≥ 97 && c.val ≤ 122) ||
      (c.val ≥ 48 && c.val ≤ 57)) = true at halphanum
    simp only [Bool.or_eq_true, Bool.and_eq_true, decide_eq_true_eq, ge_iff_le,
      UInt32.le_iff_toNat_le] at halphanum
    change ((65 ≤ c.toNat ∧ c.toNat ≤ 90) ∨ (97 ≤ c.toNat ∧ c.toNat ≤ 122)) ∨
      (48 ≤ c.toNat ∧ c.toNat ≤ 57) at halphanum
    omega
  · decide
  · decide

/-- A character of an id that could name a file stands for itself in a path, and starts no
directory. -/
theorem isPlainChar_of_isFileChar {c : Char} (h : isFileChar c = true) :
    isPlainChar c = true ∧ c.toLower ≠ '.' ∧ c.toLower ≠ '%' := by
  have hfacts : ∀ n < 0x80, isFileChar (Char.ofNat n) = true →
      isPlainChar (Char.ofNat n) = true ∧ (Char.ofNat n).toLower ≠ '.' ∧
        (Char.ofNat n).toLower ≠ '%' := by decide +kernel
  have hchar := hfacts c.toNat (toNat_lt_of_isFileChar h)
  rw [Char.ofNat_toNat] at hchar
  exact hchar h

variable {id : KeyId}

theorem isPlainSegment_text (h : id.fileFault? = none) : IsPlainSegment id.text.toList := by
  have hplain : ∀ c ∈ id.text.toList, isPlainChar c = true ∧ c.toLower ≠ '.' ∧ c.toLower ≠ '%' :=
    fun c hc ↦ isPlainChar_of_isFileChar (KeyKind.isFileChar_of_fileFault? h hc)
  obtain ⟨c, rest, htext⟩ := List.exists_cons_of_ne_nil (KeyKind.toList_ne_nil_of_fileFault? h)
  rw [htext] at hplain ⊢
  exact isPlainSegment_cons (fun d hd ↦ (hplain d hd).1) (hplain c (.head _)).2.1
    (hplain c (.head _)).2.2

theorem toList_keyPath (id : KeyId) :
    (Api.keyPath id).toList = Api.keysPath.toList ++ '/' :: id.text.toList := by
  rw [Api.keyPath, String.toList_append, String.toList_append, List.append_assoc]
  rfl

/-- The segments of the path where the key of an id is shown. -/
def segments (id : KeyId) : List (List Char) := ["keys".toList, id.text.toList]

theorem isPlainSegment_segments (h : id.fileFault? = none) :
    ∀ segment ∈ id.segments, IsPlainSegment segment := by
  have hkeys : IsPlainSegment "keys".toList :=
    isPlainSegment_cons (List.all_eq_true.mp (by decide)) (by decide) (by decide)
  exact List.forall_mem_cons.mpr ⟨hkeys, List.forall_mem_singleton.mpr (isPlainSegment_text h)⟩

theorem keyPath_eq (id : KeyId) : Api.keyPath id = String.ofList (plainPath id.segments) := by
  refine String.toList_injective ?_
  rw [toList_keyPath, String.toList_ofList, plainPath, segments, List.flatMap_cons,
    List.flatMap_singleton]
  rfl

end KeyId

/-- The client's URL of a key names the server's host and the path of the key. -/
theorem Http.ServerUrl.callable_keyPath {spelling : NameSpelling} (url : ServerUrl spelling)
    {id : KeyId} (hfault : id.fileFault? = none)
    (hsendable : (url.on (Api.keyPath id)).isSendable = true) :
    Url.callable spelling (urlOn url.text (Api.keyPath id)) = .ok (url.on (Api.keyPath id)) := by
  rw [KeyId.keyPath_eq] at hsendable ⊢
  exact url.callable_urlOn (KeyId.isPlainSegment_segments hfault) (List.cons_ne_nil _ _) hsendable

/-! ## Ids in requests -/

theorem Http.unescape_eq_self {bytes : Bytes} (h : ∀ b ∈ bytes, b.toNat ≠ 0x25) :
    unescape bytes = bytes := by
  fun_induction unescape bytes with
  | case1 => rfl
  | case2 => rfl
  | case3 => rfl
  | case4 a b c rest high low hhigh hlow hpercent => exact absurd hpercent (h a List.mem_cons_self)
  | case5 a b c rest high low hhigh hlow hpercent ih => rw [ih fun d hd ↦ h d (.tail _ hd)]
  | case6 a b c rest hdigits ih => rw [ih fun d hd ↦ h d (.tail _ hd)]

theorem Route.ofPath?_key {segment : List Char} (hne : segment ≠ []) (hslash : '/' ∉ segment) :
    Route.ofPath? (Api.keysPath.toList ++ '/' :: segment)
      = some (.key (String.ofList segment)) := by
  have hhealth : Api.keysPath.toList ++ '/' :: segment ≠ Api.healthPath.toList := by
    intro heq
    have hsecond : some 'k' = some 'h' := congrArg (·[1]?) heq
    exact absurd hsecond (by decide)
  have hdecrypt : Api.keysPath.toList ++ '/' :: segment ≠ Api.decryptPath.toList := by
    intro heq
    have hsecond : some 'k' = some 'm' := congrArg (·[1]?) heq
    exact absurd hsecond (by decide)
  have hkeys : Api.keysPath.toList ++ '/' :: segment ≠ Api.keysPath.toList := by
    intro heq
    have hlength := congrArg List.length heq
    rw [List.length_append, List.length_cons] at hlength
    omega
  have hfound : (Api.keysPath ++ "/").toList.isPrefixOf? (Api.keysPath.toList ++ '/' :: segment)
      = some segment := by
    rw [List.isPrefixOf?_eq_some_iff_append_eq, String.toList_append, List.append_assoc]
    rfl
  rw [Route.ofPath?, if_neg hhealth, if_neg hdecrypt, if_neg hkeys, hfound, Option.bind_some,
    if_neg]
  simp [hne, hslash]

namespace Server

theorem spelledId?_text {id : KeyId} (h : id.fileFault? = none) : spelledId? id.text = some id := by
  have hplain : ∀ b ∈ Utf8.encodeString id.text, b.toNat ≠ 0x25 := by
    intro b hb
    obtain ⟨c, hc, hb⟩ := List.mem_flatMap.mp hb
    have hchar := KeyKind.isFileChar_of_fileFault? h hc
    have hlt := KeyId.toNat_lt_of_isFileChar hchar
    rw [Utf8.encodeChar_of_lt hlt, List.mem_singleton] at hb
    rw [hb, UInt8.toNat_ofNat_of_lt' (Nat.lt_trans hlt (by decide))]
    intro hpercent
    have hc : c = '%' := Char.toNat_inj.mp hpercent
    rw [hc] at hchar
    exact absurd hchar (by decide)
  rw [spelledId?, unescape_eq_self hplain, Utf8.decodeString_encodeString]

theorem askedId?_keyPath {id : KeyId} (h : id.fileFault? = none) {request : Request}
    (htarget : request.target = Api.keyPath id) : askedId? request = some id := by
  have hpath : pathOf request.target = Api.keysPath.toList ++ '/' :: id.text.toList := by
    rw [htarget, ← KeyId.toList_keyPath, KeyId.keyPath_eq, String.toList_ofList]
    exact pathOf_plainPath (KeyId.isPlainSegment_segments h) (List.cons_ne_nil _ _)
  have hslash : '/' ∉ id.text.toList := fun hmem ↦
    absurd (KeyKind.isFileChar_of_fileFault? h hmem) (by decide)
  rw [askedId?, hpath, Route.ofPath?_key (KeyKind.toList_ne_nil_of_fileFault? h) hslash,
    String.ofList_toList]
  exact spelledId?_text h

end Server

/-! ## Asking -/

theorem Api.readKey_keyDocument (document : Api.KeyDocument) :
    Api.readKey (Utf8.encodeString (Api.keyDocument document)) = .ok document := by
  have hread := Json.readRecord_writeRecord
    [("key_id", document.keyId.text), ("public_key_pem", document.pem)] (by simp)
  rw [List.map_cons, List.map_cons, List.map_nil] at hread
  rw [Api.readKey, Api.keyDocument, hread]
  rfl

namespace RemoteKeys

theorem textIn_ofJson (target : Url) (id : KeyId) (document : Api.KeyDocument) :
    textIn target id (.answered (.ofJson 200 (Api.keyDocument document))) = .ok document.pem := by
  have hmissing : ¬(200 : Nat) = 404 := by decide
  have hsuccess : ¬(!Status.isSuccess ⟨200⟩) = true := by decide
  rw [textIn, Response.ofJson]
  dsimp only
  rw [if_neg hmissing, if_neg hsuccess, Api.readKey_keyDocument]

theorem textIn_of_code_eq {target : Url} {id : KeyId} {response : Response}
    (h : response.status.code = 404) :
    textIn target id (.answered response) = .error (.notFound id) :=
  if_pos h

variable {σ : Type} {server : Server σ} {spelling : NameSpelling} {config : ClientConfig}
  {url : ServerUrl spelling} {id : KeyId}

/-- **Asking.** A client gets what is in the answer to a request for the path of the key. -/
theorem run_resolver (hurl : config.serverUrl = url.text) (hfault : id.fileFault? = none)
    (hsendable : (url.on (Api.keyPath id)).isSendable = true) (line : Line σ) :
    ((resolver (server.transport spelling) config id).run.run line).1
      = textIn (url.on (Api.keyPath id)) id
          (.answered (server.handle ⟨"GET", Api.keyPath id, none, []⟩ line.store).1) := by
  have hsend : (liftM ((server.transport spelling).send config.timeout.toNat
        (String.ofList url.host) ⟨"GET", Api.keyPath id, none, []⟩) :
        ExceptT ResolverError (StateM (Line σ)) Exchange).run.run line
      = (.ok (.answered (server.handle ⟨"GET", Api.keyPath id, none, []⟩ line.store).1),
          ⟨line.carried ++ [⟨"GET", Api.keyPath id, none, []⟩],
            (server.handle ⟨"GET", Api.keyPath id, none, []⟩ line.store).2⟩) := rfl
  rw [resolver, server.transport_spelling, hurl, url.callable_keyPath hfault hsendable]
  dsimp only [ServerUrl.on]
  rw [run_bind_ok _ hsend]
  rcases textIn _ id _ with error | text <;> rfl

end RemoteKeys

end DualSeal

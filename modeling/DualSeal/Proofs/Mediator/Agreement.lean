import DualSeal.Keys.Store.Memory
import DualSeal.Mediator.Remote
import DualSeal.Proofs.Envelope.Tampering
import DualSeal.Proofs.Json.Record
import DualSeal.Proofs.Server.Requests
import DualSeal.Server.Router

/-!
# A mediator behind a server is the mediator that the server holds

A client that reaches the route where shards are opened gets what the server's own mediator would
have answered, by one request: the share, byte for byte, or a refusal. Between the two stand a
document each way, a status, and base64 around a share. The statuses of refusals are all of the
client's own making, so that none of them is tried again, and a document of strings is read back
whatever characters are in it.

A decryption therefore ends the same way with either mediator (`remote_agrees`), but for the words
of a refusal, in front of which a status stands when it comes from afar.
-/

namespace DualSeal

open Http

/-! ## Documents -/

namespace Api

theorem readRequest_requestDocument (request : MediatorRequest) :
    readRequest (Utf8.encodeString (requestDocument request)) = .ok request := by
  have hread := Json.readRecord_writeRecord
    [("key_id", request.keyId.text), ("value", request.value)] (by simp)
  rw [List.map_cons, List.map_cons, List.map_nil] at hread
  rw [readRequest, requestDocument, hread]
  rfl

theorem readShare_shareDocument (share : String) :
    readShare (Utf8.encodeString (shareDocument share)) = .ok share := by
  have hread := Json.readRecord_writeRecord [("share", share)] (by simp)
  rw [List.map_cons, List.map_nil] at hread
  rw [readShare, shareDocument, hread]
  rfl

end Api

theorem Utf8.decodeLossy_encodeString (text : String) :
    Utf8.decodeLossy (Utf8.encodeString text) = text := by
  have hread : Utf8.decode (Utf8.encodeString text) = .ok text.toList :=
    Utf8.decode_encode text.toList
  rw [Utf8.decodeLossy, Utf8.decodeLossyWithin, hread]
  exact String.ofList_toList

/-! ## The server's side -/

namespace Server

theorem readBody_eq_ok {α : Type} {read : Bytes → Except Json.Fault α} {method target : String}
    {body : Bytes} {a : α} (hlength : body.length ≤ bodyLimit) (hread : read body = .ok a) :
    readBody read ⟨method, target, some jsonType, body⟩ = .ok a := by
  have hjson : isJsonType jsonType = true := by
    decide +kernel
  rw [readBody]
  dsimp only
  rw [Option.map_some, Option.getD_some, if_pos hjson, if_neg (Nat.not_lt_of_le hlength), hread]
  rfl

/-- The answer to a request that arrives where shards are opened, by what it comes to. -/
def openedResponse : Except LocalMediatorError Share → Response
  | .ok share => .ofJson 200 (Api.shareDocument (Shard.encodeValue share.bytes))
  | .error error => .ofText (refusalCode error) error.message

/-- The answer to a request that was read. This is shown for any way to open shards: a mediator's
own would be computed wherever two answers are compared. -/
theorem answer_eq_openedResponse (openShard : MediatorRequest → Except LocalMediatorError Share)
    (asked : MediatorRequest) :
    (match (Except.ok asked : Except Response MediatorRequest) with
      | .error response => response
      | .ok asked =>
        match openShard asked with
        | .ok share => .ofJson 200 (Api.shareDocument (Shard.encodeValue share.bytes))
        | .error error => .ofText (refusalCode error) error.message)
      = openedResponse (openShard asked) := by
  dsimp only
  rw [openedResponse.eq_def]

theorem decrypt_of_readBody_eq_ok {mediator : LocalMediator} {request : Request}
    {asked : MediatorRequest} (h : readBody Api.readRequest request = .ok asked) :
    decrypt mediator request = openedResponse (mediator.openShard asked) := by
  rw [decrypt, h]
  exact answer_eq_openedResponse mediator.openShard asked

theorem decrypt_message {mediator : LocalMediator} {target : String} {request : MediatorRequest}
    (hlength : (Utf8.encodeString (Api.requestDocument request)).length ≤ bodyLimit) :
    decrypt mediator (RemoteMediator.message target request)
      = openedResponse (mediator.openShard request) := by
  have hread := Api.readRequest_requestDocument request
  rw [RemoteMediator.message, decrypt_of_readBody_eq_ok (readBody_eq_ok hlength hread)]

theorem handle_message {σ : Type} (server : Server σ) {target : String} {request : MediatorRequest}
    (hroute : Route.ofPath? (pathOf target) = some .decrypt)
    (hlength : (Utf8.encodeString (Api.requestDocument request)).length ≤ bodyLimit) (store : σ) :
    server.handle (RemoteMediator.message target request) store
      = (openedResponse (server.mediator.openShard request), store) := by
  have hmethod : (RemoteMediator.message target request).method = "POST" := rfl
  have htarget : (RemoteMediator.message target request).target = target := rfl
  rw [← htarget] at hroute
  rw [handle_of_decrypt hmethod hroute, decrypt_message hlength]

end Server

/-! ## The client's side -/

namespace Http.Status

theorem isServerError_iff {status : Status} :
    status.isServerError = true ↔ 500 ≤ status.code ∧ status.code < 600 := by
  rw [isServerError, decide_eq_true_eq]
  omega

theorem isClientError_iff {status : Status} :
    status.isClientError = true ↔ 400 ≤ status.code ∧ status.code < 500 := by
  rw [isClientError, decide_eq_true_eq]
  omega

end Http.Status

namespace RemoteMediator

/-- What a client makes of what its server's mediator comes to. -/
def farReply : Except LocalMediatorError Share → MediatorReply
  | .ok share => .ok share
  | .error error =>
    .error (.rejected (Status.text ⟨Server.refusalCode error⟩ ++ ": " ++ error.message))

theorem shareIn_shareDocument (share : Share) :
    shareIn (Utf8.encodeString (Api.shareDocument (Shard.encodeValue share.bytes)))
      = .ok share := by
  rw [shareIn, Api.readShare_shareDocument]
  dsimp only
  rw [encodeString_encodeValue, Base64.decode_encode]

theorem judge_of_clientError {response : Response} (hcode : 400 ≤ response.status.code)
    (hcode' : response.status.code < 500) :
    judge response = .settled (.error (.rejected
      (response.status.text ++ ": " ++ Utf8.decodeLossy response.body))) := by
  have hserver : ¬ response.status.isServerError = true := by
    rw [Status.isServerError_iff]
    omega
  rw [judge, if_neg hserver, if_pos (Status.isClientError_iff.mpr ⟨hcode, hcode'⟩)]

theorem judge_of_ok {response : Response} (hcode : response.status.code = 200) :
    judge response = .settled (shareIn response.body) := by
  have hserver : ¬ response.status.isServerError = true := by
    rw [Status.isServerError_iff]
    omega
  have hclient : ¬ response.status.isClientError = true := by
    rw [Status.isClientError_iff]
    omega
  rw [judge, if_neg hserver, if_neg hclient, if_neg (not_not_intro hcode)]

theorem judge_refusal (error : LocalMediatorError) (text : String) :
    judge (.ofText (Server.refusalCode error) text)
      = .settled (.error (.rejected
          (Status.text ⟨Server.refusalCode error⟩ ++ ": " ++ text))) := by
  have hcode : 400 ≤ Server.refusalCode error ∧ Server.refusalCode error < 500 := by
    rcases error with _ | _ | _ <;> simp [Server.refusalCode]
  rw [judge_of_clientError hcode.1 hcode.2, Response.ofText, Utf8.decodeLossy_encodeString]

theorem judge_openedResponse (opened : Except LocalMediatorError Share) :
    judge (Server.openedResponse opened) = .settled (farReply opened) := by
  cases opened with
  | error error => exact judge_refusal error error.message
  | ok share =>
    rw [Server.openedResponse, judge_of_ok rfl, Response.ofJson, shareIn_shareDocument, farReply]

end RemoteMediator

/-! ## A line between the two -/

/-- What went over a line, and the store of the server at its end. -/
structure Line (σ : Type) where
  carried : List Request
  store : σ

variable {σ : Type}

/-- The line after one more request that left the store as it was. -/
def Line.carry (line : Line σ) (request : Request) : Line σ :=
  { line with carried := line.carried ++ [request] }

/-- A line that brings every request to the server and every answer back, unchanged and in time. -/
def Server.transport (server : Server σ) (spelling : NameSpelling) :
    Transport (StateM (Line σ)) where
  spelling
  send _ _ request := modifyGet fun line ↦
    let (response, store) := server.handle request line.store
    (.answered response, { carried := line.carried ++ [request], store })
  pause _ := pure ()

@[simp]
theorem Server.transport_spelling (server : Server σ) (spelling : NameSpelling) :
    (server.transport spelling).spelling = spelling := rfl

/-- The URL of a client names the place on a server where shards are opened. -/
structure ClientConfig.Reaches (config : ClientConfig) (spelling : NameSpelling) (target : Url) :
    Prop where
  callable : Url.callable spelling (urlOn config.serverUrl Api.decryptPath) = .ok target
  route : Route.ofPath? (pathOf target.target) = some .decrypt

/-- A request that is not too long for a server. -/
def MediatorRequest.Fits (request : MediatorRequest) : Prop :=
  (Utf8.encodeString (Api.requestDocument request)).length ≤ Server.bodyLimit

instance (request : MediatorRequest) : Decidable request.Fits :=
  inferInstanceAs (Decidable (_ ≤ _))

namespace RemoteMediator

variable {server : Server σ} {spelling : NameSpelling} {config : ClientConfig} {target : Url}
  {request : MediatorRequest}

theorem run_send (timeout : Milliseconds) (host : String)
    (hroute : Route.ofPath? (pathOf target.target) = some .decrypt) (hfits : request.Fits)
    (line : Line σ) :
    ((server.transport spelling).send timeout host (message target.target request)).run line
      = (.answered (Server.openedResponse (server.mediator.openShard request)),
          line.carry (message target.target request)) := by
  have hhandle := server.handle_message hroute hfits line.store
  rw [Server.transport, StateT.run_modifyGet, hhandle]
  rfl

theorem run_attempt (hroute : Route.ofPath? (pathOf target.target) = some .decrypt)
    (hfits : request.Fits) (line : Line σ) :
    (attempt ⟨server.transport spelling, config⟩ target (message target.target request)).run line
      = (.settled (farReply (server.mediator.openShard request)),
          line.carry (message target.target request)) := by
  rw [attempt, ← map_eq_pure_bind, StateT.run_map, run_send _ _ hroute hfits]
  have hjudge := judge_openedResponse (server.mediator.openShard request)
  change (verdict _ (.answered _), _) = _
  rw [verdict, hjudge]

theorem run_call (hroute : Route.ofPath? (pathOf target.target) = some .decrypt)
    (hfits : request.Fits) (retries : UInt32) (line : Line σ) :
    (call ⟨server.transport spelling, config⟩ target (message target.target request) retries).run
        line
      = (.answered 0 (farReply (server.mediator.openShard request)),
          line.carry (message target.target request)) := by
  rw [call, StateT.run_bind, run_attempt hroute hfits]
  rfl

theorem run_toMediator (hreaches : config.Reaches spelling target) (hfits : request.Fits)
    (line : Line σ) :
    (toMediator ⟨server.transport spelling, config⟩ request).run line
      = (.answered 0 (farReply (server.mediator.openShard request)),
          line.carry (message target.target request)) := by
  rw [toMediator, server.transport_spelling, url, hreaches.callable]
  exact run_call hreaches.route hfits 0 line

theorem fst_run_map_toMediator {α : Type} (hreaches : config.Reaches spelling target)
    (hfits : request.Fits) (f : MediatorOutcome → α) (line : Line σ) :
    ((f <$> toMediator ⟨server.transport spelling, config⟩ request).run line).1
      = f (.answered 0 (farReply (server.mediator.openShard request))) := by
  rw [StateT.run_map, run_toMediator hreaches hfits]
  rfl

theorem farReply_eq_ok_iff {opened : Except LocalMediatorError Share} {share : Share} :
    farReply opened = .ok share ↔ opened = .ok share := by
  cases opened with
  | ok other => exact Iff.of_eq (by rw [farReply, Except.ok.injEq, Except.ok.injEq])
  | error error => exact ⟨nofun, nofun⟩

theorem exists_farReply_eq_rejected_iff {opened : Except LocalMediatorError Share} :
    (∃ reason, farReply opened = .error (.rejected reason)) ↔ ∃ error, opened = .error error := by
  cases opened with
  | ok share => exact ⟨nofun, nofun⟩
  | error error => exact ⟨fun _ ↦ ⟨error, rfl⟩, fun _ ↦ ⟨_, rfl⟩⟩

theorem farReply_ne_network (opened : Except LocalMediatorError Share) (reason : String) :
    farReply opened ≠ .error (.network reason) := by
  cases opened with
  | ok share => exact nofun
  | error error => exact nofun

end RemoteMediator

theorem Mediator.run_map_ofReply {α : Type} (reply : MediatorRequest → MediatorReply)
    (request : MediatorRequest) (f : MediatorOutcome → α) :
    Id.run (f <$> Mediator.ofReply reply request) = f (.answered 0 (reply request)) := rfl

theorem LocalMediator.exists_reply_eq_rejected_iff {mediator : LocalMediator}
    {request : MediatorRequest} :
    (∃ reason, mediator.reply request = .error (.rejected reason))
      ↔ ∃ error, mediator.openShard request = .error error := by
  rw [reply]
  generalize mediator.openShard request = opened
  cases opened with
  | error error => exact ⟨fun _ ↦ ⟨error, rfl⟩, fun _ ↦ ⟨_, rfl⟩⟩
  | ok share =>
    constructor
    all_goals
      rintro ⟨_, heq⟩
      cases heq

/-! ## Decryption -/

namespace Envelope

/-- Two decryptions that end the same way, but for the words of a refusal. -/
inductive Alike : Except EnvelopeError String → Except EnvelopeError String → Prop
  | refl (result : Except EnvelopeError String) : Alike result result
  | refused (keyId : KeyId) (reason reason' : String) :
    Alike (.error (.encryption (.refused keyId reason)))
      (.error (.encryption (.refused keyId reason')))

theorem Alike.eq_ok_iff {a b : Except EnvelopeError String} (h : Alike a b) {plaintext : String} :
    a = .ok plaintext ↔ b = .ok plaintext := by
  cases h with
  | refl => exact Iff.rfl
  | refused => exact ⟨nofun, nofun⟩

theorem alike_conclude (i : Inquiry) (envelope : Envelope) (timeout : Milliseconds)
    (opened : Except LocalMediatorError Share) (words : LocalMediatorError → String) :
    Alike (i.conclude envelope timeout (.answered 0 (RemoteMediator.farReply opened)))
      (i.conclude envelope timeout (.answered 0 (opened.mapError fun error ↦
        .rejected (words error)))) := by
  have hwithin : ∀ reply, (MediatorOutcome.answered 0 reply).within? timeout = some reply := by
    intro reply
    rw [MediatorOutcome.within?, if_pos (Nat.zero_le timeout)]
  cases opened with
  | ok share => exact .refl _
  | error error =>
    rw [Inquiry.conclude, Inquiry.conclude, hwithin, hwithin]
    exact .refused _ _ _

/-- A decryption ends alike with the mediator behind the server and with the one that it holds. -/
theorem alike_decryptSecret {server : Server σ} {spelling : NameSpelling} {config : ClientConfig}
    {target : Url}
    (hreaches : config.Reaches spelling target) (envelope : Envelope) {command : DecryptCommand}
    (hfits : ∀ i, inquiry command true = .ok i → i.request.Fits) (line : Line σ) :
    Alike
      ((envelope.decryptSecret command
        (some (RemoteMediator.toMediator ⟨server.transport spelling, config⟩))).run line).1
      (Id.run (envelope.decryptSecret command (some server.mediator.toMediator))) := by
  cases hinquiry : inquiry command true with
  | error error =>
    have hfails : ∀ {m : Type → Type} [Monad m] (ask : Mediator m),
        envelope.decryptSecret command (some ask) = pure (.error error) := fun ask ↦
      decryptSecret_of_inquiry_eq_error (by rw [Option.isSome_some, hinquiry])
    rw [hfails, hfails]
    exact .refl _
  | ok i =>
    rw [decryptSecret_of_inquiry_eq_ok hinquiry, decryptSecret_of_inquiry_eq_ok hinquiry,
      RemoteMediator.fst_run_map_toMediator hreaches (hfits i hinquiry), LocalMediator.toMediator,
      Mediator.run_map_ofReply, LocalMediator.reply]
    exact alike_conclude i envelope command.timeout _ LocalMediatorError.message

end Envelope

/-- **A mediator behind a server agrees with the one that the server holds.** A client whose URL
names the place where the server opens shards gets, by one request, the share that the server's own
mediator gives, and a refusal where that one refuses; it is never told that the network failed. A
decryption therefore ends alike with either, in the same plaintext or the same kind of error. -/
theorem remote_agrees {server : Server σ} {spelling : NameSpelling} {config : ClientConfig}
    {target : Url}
    (hreaches : config.Reaches spelling target) :
    (∀ (request : MediatorRequest) (line : Line σ), request.Fits →
      ∃ reply,
        (RemoteMediator.toMediator ⟨server.transport spelling, config⟩ request).run line
          = (.answered 0 reply, line.carry (RemoteMediator.message target.target request)) ∧
        (∀ share, reply = .ok share ↔ server.mediator.reply request = .ok share) ∧
        ((∃ reason, reply = .error (.rejected reason))
          ↔ ∃ reason, server.mediator.reply request = .error (.rejected reason)) ∧
        ∀ reason, reply ≠ .error (.network reason)) ∧
    ∀ (envelope : Envelope) (command : DecryptCommand) (line : Line σ),
      (∀ i, Envelope.inquiry command true = .ok i → i.request.Fits) →
        Envelope.Alike
          ((envelope.decryptSecret command
            (some (RemoteMediator.toMediator ⟨server.transport spelling, config⟩))).run line).1
          (Id.run (envelope.decryptSecret command (some server.mediator.toMediator))) := by
  refine ⟨fun request line hfits ↦ ?_, fun envelope command line hfits ↦
    Envelope.alike_decryptSecret hreaches envelope hfits line⟩
  refine ⟨_, RemoteMediator.run_toMediator hreaches hfits line, fun share ↦ ?_, ?_,
    RemoteMediator.farReply_ne_network _⟩
  · rw [RemoteMediator.farReply_eq_ok_iff, LocalMediator.reply, mapError_eq_ok_iff]
  · rw [RemoteMediator.exists_farReply_eq_rejected_iff,
      LocalMediator.exists_reply_eq_rejected_iff]

section Attack

open KeyPair Envelope

/-- What a client calls by default. -/
def localTarget : Url := ⟨"http", "127.0.0.1:8600", Api.decryptPath⟩

theorem ClientConfig.default_reaches : ClientConfig.default.Reaches .bare localTarget where
  callable := by decide +kernel
  route := by decide +kernel

/-- What the mediator is asked when the second pair opens the attack. -/
def attackRequest : MediatorRequest := ⟨(attackShard one).value, one.id⟩

/-- A server with the first of the three key pairs. -/
def attackServer : Server (TextTable (KeyKind × KeyId)) := ⟨⟨one, .expecting attackShare⟩, .memory⟩

theorem attackRequest_fits : attackRequest.Fits := by
  decide +kernel

theorem reply_attackRequest :
    attackServer.mediator.reply attackRequest = .ok (attackShare one.publicKey) := by
  rw [LocalMediator.reply, mapError_eq_ok_iff, openShard_eq_ok_iff]
  exact ⟨rfl, attackCiphertext one.publicKey, rfl,
    (ShareEncryption.expecting_opensOnly attackShare one).opens⟩

theorem attackShard_value_ne (pair : KeyPair) : (attackShard pair).value ≠ "" := by
  have hhalves := halves_ne_nil sevens (addTag (Utf8.encodeString attack.plaintext))
  have hshare : (attackShare pair.publicKey).bytes ≠ [] := by
    rw [attackShare]
    split
    · exact hhalves.1
    · exact hhalves.2
  intro hempty
  have hfield := isField_encodeValue
    (List.append_ne_nil_of_right_ne_nil pair.publicKey.bytes hshare)
  exact hfield.ne_nil (congrArg String.toList hempty)

theorem decode_attackSecret : Secret.decode (attackSecret.encode .simple) = .ok attackSecret := by
  obtain ⟨first, second, -, hcontains⟩ := contains_of_sealSecret sealSecret_attack
  refine hcontains.seals.decode_encode ?_ .simple
  rw [attackSecret, List.forall_mem_cons, List.forall_mem_cons, List.forall_mem_singleton]
  exact ⟨attackShard_value_ne one, attackShard_value_ne two, attackShard_value_ne three⟩

theorem find?_attackSecret_one : attackSecret.find? one.id = some (attackShard one) :=
  List.find?_cons_of_pos (decide_eq_true rfl)

theorem find?_attackSecret_two : attackSecret.find? two.id = some (attackShard two) := by
  refine (List.find?_cons_of_neg ?_).trans (List.find?_cons_of_pos (decide_eq_true rfl))
  rw [decide_eq_true_eq]
  exact one_id_ne_two_id

theorem decryptLocal_attack :
    decryptLocal ⟨.expecting attackShare, Shamir.scheme⟩ one (attackSecret.encode .simple) two 10000
      = .ok "attack at dawn" := by
  obtain ⟨first, second, hsplit, hcontains⟩ := contains_of_sealSecret sealSecret_attack
  rw [splitInTwo_scheme _ (addTag_ne_nil _)] at hsplit
  obtain ⟨rfl, rfl⟩ := Prod.mk.inj (Except.ok.inj hsplit)
  refine decryptLocal_eq_ok_iff.mpr ⟨one_id_ne_two_id.symm, attackSecret, _, _, _, _,
    decode_attackSecret, find?_attackSecret_one, find?_attackSecret_two,
    (ShareEncryption.expecting_opensOnly attackShare one).opens,
    (ShareEncryption.expecting_opensOnly attackShare two).opens, ?_⟩
  rw [attackShare_one, attackShare_two]
  exact recombine_of_contains hcontains

theorem remote_agrees_attack :
    (RemoteMediator.toMediator ⟨attackServer.transport .bare, .default⟩ attackRequest).run
        ⟨[], .empty⟩
      = (.answered 0 (.ok (attackShare one.publicKey)),
          Line.carry ⟨[], .empty⟩ (RemoteMediator.message Api.decryptPath attackRequest)) ∧
    ((decryptSecret ⟨.expecting attackShare, Shamir.scheme⟩
        ⟨attackSecret.encode .simple, one.id, some two, 10000⟩
        (some (RemoteMediator.toMediator ⟨attackServer.transport .bare, .default⟩))).run
          ⟨[], .empty⟩).1
      = .ok "attack at dawn" := by
  obtain ⟨hcall, hdecrypt⟩ := @remote_agrees _ attackServer _ _ _ ClientConfig.default_reaches
  constructor
  · obtain ⟨reply, hrun, hok, -⟩ := hcall attackRequest ⟨[], .empty⟩ attackRequest_fits
    rw [hrun, (hok _).mpr reply_attackRequest, localTarget]
  · have halike := hdecrypt ⟨.expecting attackShare, Shamir.scheme⟩
      ⟨attackSecret.encode .simple, one.id, some two, 10000⟩ ⟨[], .empty⟩ ?_
    · refine halike.eq_ok_iff.mpr ?_
      rw [attackServer, decryptSecret_toMediator, decryptLocal_attack]
      rfl
    · intro i hinquiry
      obtain ⟨-, secret, own, shared, hdecode, -, hshared, -, hrequest, -⟩ :=
        inquiry_eq_ok_iff.mp hinquiry
      obtain rfl := Except.ok.inj (decode_attackSecret.symm.trans hdecode)
      obtain rfl := Option.some.inj (find?_attackSecret_one.symm.trans hshared)
      rw [hrequest]
      exact attackRequest_fits

end Attack

end DualSeal

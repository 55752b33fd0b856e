import DualSeal.Proofs.Mediator.Agreement

/-!
# How often a request is sent

A client sends its request again for as long as no answer comes about or the server says that it is
at fault, after a pause each time, and no more often than it is configured to. So what it sends is
determined by the first exchange that is none of these: with `k` such exchanges before it, it is
sent once more than `k` times with `k` pauses between, and its end is that of the call
(`calls_exactly`). It is the same request each time, and the server reads in it what was asked.

The number of attempts that is reported is counted in thirty-two bits, as the number of retries is.
It is the right one unless the latter is the largest there is, and then it is nought
(`calls_exactly_patient`).
-/

namespace DualSeal

open Http

/-- What happens on a client's side of a line. -/
inductive LineEvent where
  | sent (timeout : Milliseconds) (host : String) (request : Request)
  | paused (duration : Milliseconds)
  deriving DecidableEq

/-- How many requests went over a line, and what happened there. -/
structure Traffic where
  sent : Nat
  events : List LineEvent

/-- A line on which the exchanges end like this, one after the other. -/
def Traffic.transport (spelling : NameSpelling) (exchanges : Nat → Exchange) :
    Transport (StateM Traffic) where
  spelling
  send timeout host request := modifyGet fun traffic ↦
    (exchanges traffic.sent,
      ⟨traffic.sent + 1, traffic.events ++ [.sent timeout host request]⟩)
  pause duration := modify fun traffic ↦
    { traffic with events := traffic.events ++ [.paused duration] }

namespace RemoteMediator

/-! ## Exchanges -/

/-- An exchange after which the request may be sent again, and why. -/
inductive Retries (target : Url) : Exchange → (reason : String) → Prop
  | refused : Retries target .refused (undelivered target.text)
  | timedOut : Retries target .timedOut (undelivered target.text)
  | serverError {response : Response} (hcode : 500 ≤ response.status.code)
    (hcode' : response.status.code < 600) :
    Retries target (.answered response) ("server returned " ++ response.status.text)

/-- An exchange that ends a call, and the reply that it comes to. -/
inductive Settles (target : Url) : Exchange → MediatorReply → Prop
  | dropped : Settles target .dropped (.error (.network (undelivered target.text)))
  | clientError {response : Response} (hcode : 400 ≤ response.status.code)
    (hcode' : response.status.code < 500) :
    Settles target (.answered response)
      (.error (.rejected (response.status.text ++ ": " ++ Utf8.decodeLossy response.body)))
  | unexpected {response : Response} (hcode : response.status.code ≠ 200)
    (hcode' : response.status.code < 400 ∨ 600 ≤ response.status.code) :
    Settles target (.answered response)
      (.error (.network ("unexpected status " ++ response.status.text)))
  | undecodable {response : Response} {fault : Json.Fault} (hcode : response.status.code = 200)
    (h : Api.readShare response.body = .error fault) :
    Settles target (.answered response) (.error (.network undecodable))
  | badShare {response : Response} {share : String} {fault : Base64.Fault}
    (hcode : response.status.code = 200) (h : Api.readShare response.body = .ok share)
    (hshare : Base64.decode (Utf8.encodeString share) = .error fault) :
    Settles target (.answered response)
      (.error (.network ("invalid share encoding: " ++ fault.message)))
  | share {response : Response} {share : String} {bytes : Bytes}
    (hcode : response.status.code = 200) (h : Api.readShare response.body = .ok share)
    (hshare : Base64.decode (Utf8.encodeString share) = .ok bytes) :
    Settles target (.answered response) (.ok ⟨bytes⟩)

variable {target : Url} {exchange : Exchange} {reason : String} {reply : MediatorReply}

theorem verdict_of_retries (h : Retries target exchange reason) :
    verdict target exchange = .retry reason := by
  cases h with
  | refused => rfl
  | timedOut => rfl
  | serverError hcode hcode' =>
    rw [verdict, judge, if_pos (Status.isServerError_iff.mpr ⟨hcode, hcode'⟩)]

theorem verdict_of_settles (h : Settles target exchange reply) :
    verdict target exchange = .settled reply := by
  cases h with
  | dropped => rfl
  | clientError hcode hcode' => rw [verdict, judge_of_clientError hcode hcode']
  | unexpected hcode hcode' =>
    rename_i response
    have hserver : ¬ response.status.isServerError = true := by
      rw [Status.isServerError_iff]
      omega
    have hclient : ¬ response.status.isClientError = true := by
      rw [Status.isClientError_iff]
      omega
    rw [verdict, judge, if_neg hserver, if_neg hclient, if_pos hcode]
  | undecodable hcode h => rw [verdict, judge_of_ok hcode, shareIn, h]
  | badShare hcode h hshare =>
    rw [verdict, judge_of_ok hcode, shareIn, h]
    dsimp only
    rw [hshare]
  | share hcode h hshare =>
    rw [verdict, judge_of_ok hcode, shareIn, h]
    dsimp only
    rw [hshare]

theorem exists_retries_or_settles (target : Url) (exchange : Exchange) :
    (∃ reason, Retries target exchange reason) ∨ ∃ reply, Settles target exchange reply := by
  rcases exchange with _ | _ | _ | response
  · exact .inl ⟨_, .refused⟩
  · exact .inl ⟨_, .timedOut⟩
  · exact .inr ⟨_, .dropped⟩
  by_cases hserver : 500 ≤ response.status.code ∧ response.status.code < 600
  · exact .inl ⟨_, .serverError hserver.1 hserver.2⟩
  refine .inr ?_
  by_cases hclient : 400 ≤ response.status.code ∧ response.status.code < 500
  · exact ⟨_, .clientError hclient.1 hclient.2⟩
  by_cases hcode : response.status.code = 200
  · rcases hread : Api.readShare response.body with fault | share
    · exact ⟨_, .undecodable hcode hread⟩
    rcases hshare : Base64.decode (Utf8.encodeString share) with fault | bytes
    · exact ⟨_, .badShare hcode hread hshare⟩
    · exact ⟨_, .share hcode hread hshare⟩
  · exact ⟨_, .unexpected hcode (by omega)⟩

/-! ## Rounds -/

section Calls

variable {m : Type → Type} [Monad m] {client : RemoteMediator m} {request : Request}
  {retries : UInt32}

theorem call_of_lt (hleft : retries < client.config.maxRetries) :
    client.call target request retries = do
      match ← client.attempt target request with
      | .settled reply => return .answered 0 reply
      | .retry _ =>
        client.transport.pause client.backoff
        return delayed client.backoff (← client.call target request (retries + 1)) := by
  rw [call]
  refine bind_congr fun verdict ↦ ?_
  cases verdict with
  | settled reply => rfl
  | retry reason => exact dif_pos hleft

theorem call_of_not_lt (hleft : ¬retries < client.config.maxRetries) :
    client.call target request retries = do
      match ← client.attempt target request with
      | .settled reply => return .answered 0 reply
      | .retry reason => return .answered 0 (givingUp retries reason) := by
  rw [call]
  refine bind_congr fun verdict ↦ ?_
  cases verdict with
  | settled reply => rfl
  | retry reason => exact dif_neg hleft

end Calls

section Rounds

variable (config : ClientConfig) (target : Url) (request : Request)

/-- What happens on a line over which a request is sent once more than `k` times. -/
def rounds : (k : Nat) → List LineEvent
  | 0 => [.sent config.timeout.toNat target.host request]
  | k + 1 => .sent config.timeout.toNat target.host request ::
      .paused config.retryBackoff.toNat :: rounds k

/-- Every event is this request or this pause, and they are as many as they should be. -/
theorem count_rounds (k : Nat) :
    (rounds config target request k).count (.sent config.timeout.toNat target.host request)
      = k + 1 ∧
    (rounds config target request k).count (.paused config.retryBackoff.toNat) = k ∧
    (rounds config target request k).length = 2 * k + 1 := by
  induction k with
  | zero => simp [rounds]
  | succ k ih =>
    obtain ⟨hsent, hpaused, hlength⟩ := ih
    simp [rounds, hsent, hpaused, hlength]
    omega

end Rounds

section Runs

variable {spelling : NameSpelling} {exchanges : Nat → Exchange} {config : ClientConfig}
  {target : Url} {request : Request}

/-- A client whose exchanges end like this. -/
def onLine (spelling : NameSpelling) (exchanges : Nat → Exchange) (config : ClientConfig) :
    RemoteMediator (StateM Traffic) :=
  ⟨Traffic.transport spelling exchanges, config⟩

@[simp]
theorem onLine_spelling : (onLine spelling exchanges config).transport.spelling = spelling := rfl

/-- What a call comes to with its last exchange, after so many retries. -/
def lastReply (retries : UInt32) : Verdict → MediatorReply
  | .settled reply => reply
  | .retry reason => givingUp retries reason

/-- **One attempt** uses up one exchange. -/
theorem run_attempt_onLine (traffic : Traffic) :
    ((onLine spelling exchanges config).attempt target request).run traffic
      = (verdict target (exchanges traffic.sent),
        ⟨traffic.sent + 1,
          traffic.events ++ [.sent config.timeout.toNat target.host request]⟩) := rfl

theorem run_call_last {retries : UInt32} (traffic : Traffic)
    (hlast : ¬retries < config.maxRetries ∨
      ∃ reply, verdict target (exchanges traffic.sent) = .settled reply) :
    ((onLine spelling exchanges config).call target request retries).run traffic
      = (.answered 0 (lastReply retries (verdict target (exchanges traffic.sent))),
        ⟨traffic.sent + 1, traffic.events ++ rounds config target request 0⟩) := by
  obtain hleft | ⟨reply, hreply⟩ := hlast
  · have hcall := @call_of_not_lt target _ _ (onLine spelling exchanges config) request _ hleft
    rw [hcall, StateT.run_bind, run_attempt_onLine]
    rcases verdict target (exchanges traffic.sent) with reply | reason <;> rfl
  · rw [call, StateT.run_bind, run_attempt_onLine, hreply]
    rfl

/-- **One round.** A pause, and what is left of the call. -/
theorem run_call_retry {retries : UInt32} {traffic : Traffic} {reason : String}
    (hleft : retries < config.maxRetries)
    (hretry : verdict target (exchanges traffic.sent) = .retry reason) :
    ((onLine spelling exchanges config).call target request retries).run traffic
      = Prod.map (delayed (onLine spelling exchanges config).backoff) id
        (((onLine spelling exchanges config).call target request (retries + 1)).run
          ⟨traffic.sent + 1, traffic.events ++ [.sent config.timeout.toNat target.host request,
            .paused config.retryBackoff.toNat]⟩) := by
  have hevents : traffic.events ++ [.sent config.timeout.toNat target.host request,
        .paused config.retryBackoff.toNat]
      = traffic.events ++ [.sent config.timeout.toNat target.host request]
        ++ [.paused config.retryBackoff.toNat] := by
    rw [List.append_assoc]
    rfl
  have hcall := @call_of_lt target _ _ (onLine spelling exchanges config) request _ hleft
  rw [hcall, StateT.run_bind, run_attempt_onLine, hretry, hevents]
  rfl

/-- **All rounds**, by induction on how many exchanges come before the last. The counter goes up by
one in each, and never passes the number of retries that are allowed. -/
theorem run_call_onLine {k : Nat} {retries : UInt32} {traffic : Traffic}
    (hk : retries.toNat + k ≤ config.maxRetries.toNat)
    (hbefore : ∀ j < k, ∃ reason,
      verdict target (exchanges (traffic.sent + j)) = .retry reason)
    (hlast : retries.toNat + k = config.maxRetries.toNat ∨ ∃ reply,
      verdict target (exchanges (traffic.sent + k)) = .settled reply) :
    ∃ counted : UInt32, counted.toNat = retries.toNat + k ∧
      ((onLine spelling exchanges config).call target request retries).run traffic
        = (.answered (k * config.retryBackoff.toNat)
            (lastReply counted (verdict target (exchanges (traffic.sent + k)))),
          ⟨traffic.sent + (k + 1), traffic.events ++ rounds config target request k⟩) := by
  induction k generalizing retries traffic with
  | zero =>
    refine ⟨retries, rfl, ?_⟩
    rw [Nat.zero_mul]
    refine run_call_last traffic (hlast.imp_left fun hall ↦ ?_)
    rw [UInt32.lt_iff_toNat_lt, ← hall]
    exact Nat.lt_irrefl _
  | succ k ih =>
    have hleft : retries < config.maxRetries := UInt32.lt_iff_toNat_lt.mpr (by omega)
    have hcount : (retries + 1).toNat + k = retries.toNat + (k + 1) := by
      rw [toNat_add_one hleft]
      omega
    have hnext : ∀ j, traffic.sent + (j + 1) = traffic.sent + 1 + j := by
      omega
    obtain ⟨reason, hretry⟩ := hbefore 0 (Nat.succ_pos k)
    rw [run_call_retry hleft hretry]
    obtain ⟨counted, hcounted, hrun⟩ := @ih (retries + 1) ⟨traffic.sent + 1, traffic.events ++
        [.sent config.timeout.toNat target.host request, .paused config.retryBackoff.toNat]⟩
      (hcount.trans_le hk)
      (fun j hj ↦ by
        rw [← hnext]
        exact hbefore (j + 1) (Nat.succ_lt_succ hj))
      (by rwa [hcount, ← hnext])
    refine ⟨counted, hcounted.trans hcount, ?_⟩
    have hdelay : config.retryBackoff.toNat + k * config.retryBackoff.toNat
        = (k + 1) * config.retryBackoff.toNat := by
      rw [Nat.succ_mul, Nat.add_comm]
    rw [hrun]
    dsimp only [Prod.map_apply, id, delayed]
    rw [← hnext, ← hnext, ← hdelay, rounds, List.append_assoc]
    rfl

theorem givingUp_eq (retries : UInt32) (reason : String) :
    givingUp retries reason = .error (.network ("giving up after "
      ++ toString ((retries.toNat + 1) % 2 ^ 32) ++ " attempts: " ++ reason)) := by
  have hcount : (retries + 1).toNat = (retries.toNat + 1) % 2 ^ 32 := UInt32.toNat_add _ _
  rw [← hcount]
  rfl

/-- Thirty-two bits are enough for the number of attempts, unless that of the retries is the largest
there is. -/
theorem givingUp_eq_iff (retries : UInt32) (reason : String) :
    givingUp retries reason = .error (.network ("giving up after "
        ++ toString (retries.toNat + 1) ++ " attempts: " ++ reason))
      ↔ retries.toNat + 1 < 2 ^ 32 := by
  rw [givingUp_eq]
  constructor
  · intro heq
    by_contra hlarge
    have hretries : retries.toNat + 1 = 2 ^ 32 := by
      have hlt := retries.toNat_lt
      omega
    have hlength : (toString (2 ^ 32 % 2 ^ 32)).length ≠ (toString (2 ^ 32)).length := by
      decide +kernel
    rw [hretries] at heq
    have hwords := congrArg String.length (MediatorError.network.inj (Except.error.inj heq))
    simp only [String.length_append] at hwords
    exact hlength (by omega)
  · intro hlt
    rw [Nat.mod_eq_of_lt hlt]

theorem run_toMediator_of_uncallable {asked : MediatorRequest} {reason : String}
    (hurl : Url.callable spelling (onLine spelling exchanges config).url = .error reason)
    (traffic : Traffic) :
    ((onLine spelling exchanges config).toMediator asked).run traffic
      = (.answered 0 (.error (.network reason)), traffic) := by
  rw [toMediator, onLine_spelling, hurl]
  rfl

theorem readRequest_message (target : String) (asked : MediatorRequest) :
    Api.readRequest (message target asked).body = .ok asked := by
  rw [message, Api.readRequest_requestDocument]

/-- **A whole call** on an unused line. The retries that it has counted are those that it made. -/
theorem run_toMediator_onLine (asked : MediatorRequest)
    (hurl : Url.callable spelling (onLine spelling exchanges config).url = .ok target) {k : Nat}
    (hk : k ≤ config.maxRetries.toNat)
    (hbefore : ∀ j < k, ∃ reason, Retries target (exchanges j) reason)
    (hlast : k = config.maxRetries.toNat ∨ ∃ reply, Settles target (exchanges k) reply) :
    ∃ counted : UInt32, counted.toNat = k ∧
      ((onLine spelling exchanges config).toMediator asked).run ⟨0, []⟩
        = (.answered (k * config.retryBackoff.toNat)
            (lastReply counted (verdict target (exchanges k))),
          ⟨k + 1, rounds config target (message target.target asked) k⟩) := by
  have hcall : (onLine spelling exchanges config).toMediator asked
      = (onLine spelling exchanges config).call target (message target.target asked) 0 := by
    rw [toMediator, onLine_spelling, hurl]
  have hrun := @run_call_onLine spelling exchanges config target (message target.target asked) k 0
    ⟨0, []⟩
  simp only [UInt32.toNat_zero, Nat.zero_add, List.nil_append] at hrun
  rw [hcall]
  refine hrun hk (fun j hj ↦ ?_) (hlast.imp_right (Exists.imp fun reply ↦ verdict_of_settles))
  exact (hbefore j hj).imp fun reason ↦ verdict_of_retries

/-- Up to any number of exchanges, there is a first one that ends the call, or none does. -/
theorem exists_first_settles (target : Url) (exchanges : Nat → Exchange) (n : Nat) :
    (∃ k ≤ n, (∀ j < k, ∃ reason, Retries target (exchanges j) reason) ∧
      ∃ reply, Settles target (exchanges k) reply) ∨
    ∀ j ≤ n, ∃ reason, Retries target (exchanges j) reason := by
  induction n with
  | zero =>
    rcases exists_retries_or_settles target (exchanges 0) with hretries | hsettles
    · refine .inr fun j hj ↦ ?_
      rwa [Nat.le_zero.mp hj]
    · exact .inl ⟨0, le_rfl, fun j hj ↦ absurd hj (Nat.not_lt_zero j), hsettles⟩
  | succ n ih =>
    obtain ⟨k, hk, hfirst⟩ | hall := ih
    · exact .inl ⟨k, Nat.le_succ_of_le hk, hfirst⟩
    rcases exists_retries_or_settles target (exchanges (n + 1)) with hretries | hsettles
    · refine .inr fun j hj ↦ ?_
      rcases Nat.le_succ_iff.mp hj with hj | rfl
      · exact hall j hj
      · exact hretries
    · exact .inl ⟨n + 1, le_rfl, fun j hj ↦ hall j (Nat.lt_succ_iff.mp hj), hsettles⟩

end Runs

/-! ## The whole call -/

/-- **A call sends its request exactly as often as it should.** A URL that cannot be called ends it
before anything is sent. Otherwise there is a first exchange, of those that the number of retries
allows for, that ends the call, and the call comes to what this one does; or all of them may be
retried, and the call gives up with the reason of the last. With `k` exchanges before its last one,
the request was sent once more than `k` times, with `k` pauses between and nothing else, and each
time it was the one in which the server reads what was asked. The number that is reported is one
more than that of the retries, in thirty-two bits: it is right exactly if it fits. -/
theorem calls_exactly (spelling : NameSpelling) (exchanges : Nat → Exchange)
    (config : ClientConfig) (asked : MediatorRequest) :
    let client := onLine spelling exchanges config
    (∀ reason, Url.callable spelling client.url = .error reason →
      (client.toMediator asked).run ⟨0, []⟩
        = (.answered 0 (.error (.network reason)), ⟨0, []⟩)) ∧
    ∀ target, Url.callable spelling client.url = .ok target →
      (∀ k ≤ config.maxRetries.toNat, ∀ reply,
        (∀ j < k, ∃ reason, Retries target (exchanges j) reason) →
        Settles target (exchanges k) reply →
        (client.toMediator asked).run ⟨0, []⟩
          = (.answered (k * config.retryBackoff.toNat) reply,
            ⟨k + 1, rounds config target (message target.target asked) k⟩)) ∧
      (∀ reason,
        (∀ j < config.maxRetries.toNat, ∃ reason, Retries target (exchanges j) reason) →
        Retries target (exchanges config.maxRetries.toNat) reason →
        ∃ reply,
          (client.toMediator asked).run ⟨0, []⟩
            = (.answered (config.maxRetries.toNat * config.retryBackoff.toNat) reply,
              ⟨config.maxRetries.toNat + 1,
                rounds config target (message target.target asked) config.maxRetries.toNat⟩) ∧
          reply = .error (.network ("giving up after "
            ++ toString ((config.maxRetries.toNat + 1) % 2 ^ 32) ++ " attempts: " ++ reason)) ∧
          (reply = .error (.network ("giving up after "
              ++ toString (config.maxRetries.toNat + 1) ++ " attempts: " ++ reason))
            ↔ config.maxRetries.toNat + 1 < 2 ^ 32)) ∧
      ((∃ k ≤ config.maxRetries.toNat,
          (∀ j < k, ∃ reason, Retries target (exchanges j) reason) ∧
          ∃ reply, Settles target (exchanges k) reply) ∨
        ∀ j ≤ config.maxRetries.toNat, ∃ reason, Retries target (exchanges j) reason) ∧
      (∀ k, let events := rounds config target (message target.target asked) k
        events.count (.sent config.timeout.toNat target.host (message target.target asked))
            = k + 1 ∧
          events.count (.paused config.retryBackoff.toNat) = k ∧ events.length = 2 * k + 1) ∧
      Api.readRequest (message target.target asked).body = .ok asked := by
  intro client
  refine ⟨fun reason hurl ↦ run_toMediator_of_uncallable hurl _, fun target hurl ↦
    ⟨fun k hk reply hbefore hsettles ↦ ?_, fun reason hbefore hretries ↦ ?_,
      exists_first_settles target exchanges _,
      count_rounds config target (message target.target asked),
      readRequest_message target.target asked⟩⟩
  · obtain ⟨counted, -, hrun⟩ :=
      run_toMediator_onLine asked hurl hk hbefore (.inr ⟨reply, hsettles⟩)
    rw [hrun, verdict_of_settles hsettles, lastReply]
  · obtain ⟨counted, hcounted, hrun⟩ := run_toMediator_onLine asked hurl le_rfl hbefore (.inl rfl)
    rw [verdict_of_retries hretries, lastReply] at hrun
    rw [← hcounted] at hrun ⊢
    exact ⟨givingUp counted reason, hrun, givingUp_eq counted reason,
      givingUp_eq_iff counted reason⟩

/-- A server that is at fault, then one that is gone, and then one that answers. -/
def recovering : Nat → Exchange
  | 0 => .answered (.bare 503)
  | 1 => .refused
  | _ + 2 => .answered (.ofJson 200 (Api.shareDocument "Bw=="))

/-- What the server reads in the last of three requests is answered. -/
theorem calls_exactly_recovering :
    ((onLine .bare recovering .default).toMediator ⟨"AAAA", ⟨"shared"⟩⟩).run ⟨0, []⟩
      = (.answered 400 (.ok ⟨[7]⟩),
        ⟨3, rounds .default localTarget (message Api.decryptPath ⟨"AAAA", ⟨"shared"⟩⟩) 2⟩) := by
  have hdecode : Base64.decode (Utf8.encodeString "Bw==") = .ok [7] := by
    decide +kernel
  have hbefore : ∀ j < 2, ∃ reason, Retries localTarget (recovering j) reason := by
    intro j hj
    rcases j with _ | _ | j
    · exact ⟨_, .serverError (by decide) (by decide)⟩
    · exact ⟨_, .refused⟩
    · omega
  have hsettles : Settles localTarget (recovering 2) (.ok ⟨[7]⟩) :=
    .share rfl (Api.readShare_shareDocument "Bw==") hdecode
  have hcall := (calls_exactly .bare recovering .default ⟨"AAAA", ⟨"shared"⟩⟩).2 _
    ClientConfig.default_reaches.callable
  exact hcall.1 2 (by decide) _ hbefore hsettles

/-- A client of a local server with the largest number of retries that there is, which it makes
without pauses. -/
def patient : ClientConfig :=
  { ClientConfig.default with maxRetries := 4294967295, retryBackoff := 0 }

theorem givingUp_patient (reason : String) :
    givingUp patient.maxRetries reason
      = .error (.network ("giving up after 0 attempts: " ++ reason)) := by
  have hcount : "giving up after " ++ toString (patient.maxRetries + 1) ++ " attempts: "
      = "giving up after 0 attempts: " := by
    decide +kernel
  rw [givingUp, hcount]

theorem run_toMediator_patient (asked : MediatorRequest) :
    ((onLine .bare (fun _ ↦ .refused) patient).toMediator asked).run ⟨0, []⟩
      = (.answered 0 (.error (.network ("giving up after 0 attempts: "
          ++ undelivered localTarget.text))),
        ⟨4294967295 + 1, rounds patient localTarget (message Api.decryptPath asked)
          4294967295⟩) := by
  have hretries : patient.maxRetries.toNat = 4294967295 := rfl
  have hpause : 4294967295 * patient.retryBackoff.toNat = 0 := rfl
  have hcallable : Url.callable .bare (onLine .bare (fun _ ↦ .refused) patient).url
      = .ok localTarget := ClientConfig.default_reaches.callable
  obtain ⟨counted, hcounted, hrun⟩ :=
    run_toMediator_onLine asked hcallable le_rfl (fun _ _ ↦ ⟨_, .refused⟩) (.inl rfl)
  rw [UInt32.toNat_inj.mp hcounted, verdict, lastReply, givingUp_patient, hretries, hpause] at hrun
  exact hrun

/-- The attempts of a patient client are more than thirty-two bits can count. -/
theorem calls_exactly_patient :
    let call := ((onLine .bare (fun _ ↦ .refused) patient).toMediator
      ⟨"AAAA", ⟨"shared"⟩⟩).run ⟨0, []⟩
    let reason := undelivered "http://127.0.0.1:8600/mediator/decrypt"
    call.2.sent = 4294967296 ∧
    call.1 = .answered 0
      (.error (.network ("giving up after 0 attempts: " ++ reason))) ∧
    ∀ delay, call.1 ≠ .answered delay
      (.error (.network ("giving up after 4294967296 attempts: " ++ reason))) := by
  intro call reason
  have hlength : "giving up after 0 attempts: ".length
      ≠ "giving up after 4294967296 attempts: ".length := by
    decide
  have htext : localTarget.text = "http://127.0.0.1:8600/mediator/decrypt" := by
    decide +kernel
  have hcall : call = _ := run_toMediator_patient ⟨"AAAA", ⟨"shared"⟩⟩
  rw [htext] at hcall
  rw [hcall]
  refine ⟨rfl, rfl, fun delay heq ↦ hlength ?_⟩
  have hwords := congrArg String.length
    (MediatorError.network.inj (Except.error.inj (MediatorOutcome.answered.inj heq).2))
  rw [String.length_append, String.length_append] at hwords
  exact Nat.add_right_cancel hwords

end RemoteMediator

end DualSeal

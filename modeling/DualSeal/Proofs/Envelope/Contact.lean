import DualSeal.Proofs.Envelope.RoundTrip

/-!
# When the mediator is asked

A decryption asks the mediator once or not at all. Everything that can be found wrong without it is
found before, and a fault of the requester's own, being the shared key or having no shard, is
reported before any other fault of the secret. What the mediator is sent does not depend on what it
does, and whatever it does, a plaintext comes out only if it hands over a share in time that
combines with the requester's own to that plaintext and its tag (`decryptSecret_contact`).

The statement holds in every monad: a mediator may keep a state, act on the world, never answer or
answer with any bytes. Requests are seen through a log that is kept beside its actions.
-/

namespace DualSeal

/-- The mediator, with every request that it is sent put down in a log. -/
def Mediator.logged {m : Type → Type} [Monad m] (mediator : Mediator m) :
    Mediator (StateT (List MediatorRequest) m) := fun request log ↦ do
  let outcome ← mediator request
  return (outcome, log ++ [request])

/-- Errors of a decryption that has not asked the mediator. -/
def EnvelopeError.IsBeforeContact : EnvelopeError → Prop
  | .format _ | .insufficientShares _ | .noMatchingShard _ => True
  | _ => False

/-- Errors of a decryption that has asked the mediator. -/
def EnvelopeError.IsAfterContact : EnvelopeError → Prop
  | .cancelled _ | .network _ | .encryption _ | .recombination _ => True
  | _ => False

namespace Envelope

/-! ## Before -/

/-- A command comes to an inquiry: its text is read as a secret in which the requester has a shard
whose value spells a ciphertext, and so does the shared key, which is not the requester's; the
mediator is asked for the shard of the shared key, as it stands there. -/
structure ComesTo (command : DecryptCommand) (i : Inquiry) : Prop where
  requester : command.requester = some i.requester
  notShared : i.requester.id ≠ command.sharedKeyId
  shards : ∃ secret own shared, Secret.decode command.encoded = .ok secret ∧
    secret.find? i.requester.id = some own ∧ secret.find? command.sharedKeyId = some shared ∧
    own.ciphertext = .ok i.ciphertext ∧ i.request = ⟨shared.value, shared.keyId⟩

theorem inquiry_eq_ok_iff_comesTo {command : DecryptCommand} {mediated : Bool} {i : Inquiry} :
    inquiry command mediated = .ok i ↔ mediated = true ∧ ComesTo command i := by
  obtain ⟨encoded, sharedId, requester, timeout⟩ := command
  cases requester with
  | none =>
    refine ⟨fun h ↦ ?_, fun h ↦ nomatch h.2.requester⟩
    obtain ⟨secret, -, h⟩ := bind_eq_ok_iff.mp h
    cases h
  | some pair =>
    cases mediated with
    | false =>
      refine ⟨fun h ↦ ?_, fun h ↦ nomatch h.1⟩
      obtain ⟨secret, -, h⟩ := bind_eq_ok_iff.mp h
      cases h
    | true =>
      rw [inquiry_eq_ok_iff]
      constructor
      · rintro ⟨hne, secret, own, shared, hdecode, hown, hshared, hcipher, hrequest, rfl⟩
        obtain ⟨-, rfl⟩ := Secret.mem_of_find?_eq_some hshared
        exact ⟨rfl, rfl, hne, secret, own, shared, hdecode, hown, hshared, hcipher, hrequest⟩
      · rintro ⟨-, hpair, hne, secret, own, shared, hdecode, hown, hshared, hcipher, hrequest⟩
        obtain rfl : pair = i.requester := Option.some.inj hpair
        obtain ⟨-, rfl⟩ := Secret.mem_of_find?_eq_some hshared
        exact ⟨hne, secret, own, shared, hdecode, hown, hshared, hcipher, hrequest, rfl⟩

theorem isBeforeContact_of_inquiry {command : DecryptCommand} {mediated : Bool}
    {error : EnvelopeError} (h : inquiry command mediated = .error error) :
    error.IsBeforeContact := by
  obtain ⟨encoded, sharedId, requester, timeout⟩ := command
  rw [inquiry] at h
  -- One check after the other, in the order in which they are made.
  rcases hdecode : Secret.decode encoded with fault | secret
  · rw [hdecode] at h
    cases h
    trivial
  rw [hdecode, Except.mapError, ok_bind] at h
  rcases requester with _ | requester
  · cases h
    trivial
  rcases mediated with _ | _
  · cases h
    trivial
  dsimp only at h
  rw [if_neg (by decide)] at h
  split at h
  · cases h
    trivial
  rcases hown : secret.find? requester.id with _ | own
  · rw [hown] at h
    cases h
    trivial
  rw [hown] at h
  rcases hshared : secret.find? sharedId with _ | shared
  · rw [hshared] at h
    cases h
    trivial
  rw [hshared] at h
  dsimp only at h
  rcases hcipher : own.ciphertext with fault | ciphertext
  · rw [hcipher] at h
    cases h
    trivial
  · rw [hcipher] at h
    cases h

/-! ## After -/

theorem isAfterContact_of_recombine {threshold : ThresholdScheme} {shared own : Share}
    {error : EnvelopeError} (h : recombine threshold shared own = .error error) :
    error.IsAfterContact := by
  rw [recombine] at h
  split at h
  · cases h
    trivial
  rw [openTagged] at h
  split at h
  · cases h
    trivial
  split at h
  · cases h
  · cases h
    trivial

theorem isAfterContact_of_conclude {envelope : Envelope} {i : Inquiry} {timeout : Milliseconds}
    {outcome : MediatorOutcome} {error : EnvelopeError}
    (h : i.conclude envelope timeout outcome = .error error) : error.IsAfterContact := by
  rw [Inquiry.conclude.eq_def] at h
  split at h
  · cases h
    trivial
  · cases h
    trivial
  · cases h
    trivial
  · split at h
    · cases h
      trivial
    · exact isAfterContact_of_recombine h

/-- A plaintext comes out exactly when the mediator hands over a share in time and the requester's
own shard opens, to shares that combine to that plaintext and its tag. -/
theorem conclude_eq_ok_iff_answered {envelope : Envelope} {i : Inquiry} {timeout : Milliseconds}
    {outcome : MediatorOutcome} {plaintext : String} :
    i.conclude envelope timeout outcome = .ok plaintext
      ↔ ∃ delay first second, outcome = .answered delay (.ok first) ∧ delay ≤ timeout ∧
        envelope.encryption.decrypt i.ciphertext i.requester = .ok second ∧
        envelope.threshold.combine [first, second]
          = .ok (addTag (Utf8.encodeString plaintext)) ∧ plaintext ≠ "" := by
  cases outcome with
  | silent =>
    constructor
    · intro h
      cases h
    · rintro ⟨_, _, _, hanswer, -⟩
      cases hanswer
  | answered delay reply =>
    by_cases hdelay : delay ≤ timeout
    · have hnow : i.conclude envelope timeout (.answered delay reply)
          = i.conclude envelope timeout (.answered 0 reply) := by
        rw [Inquiry.conclude.eq_def, Inquiry.conclude.eq_def, MediatorOutcome.within?,
          MediatorOutcome.within?, if_pos hdelay, if_pos (Nat.zero_le _)]
      rw [hnow, conclude_eq_ok_iff]
      constructor
      · rintro ⟨first, second, rfl, hsecond, hrecombine⟩
        exact ⟨delay, first, second, rfl, hdelay, hsecond, recombine_eq_ok_iff.mp hrecombine⟩
      · rintro ⟨_, first, second, hanswer, -, hsecond, hrecombine⟩
        cases hanswer
        exact ⟨first, second, rfl, hsecond, recombine_eq_ok_iff.mpr hrecombine⟩
    · rw [Inquiry.conclude.eq_def, MediatorOutcome.within?, if_neg hdelay]
      constructor
      · intro h
        cases h
      · rintro ⟨_, first, second, hanswer, hintime, -⟩
        cases hanswer
        exact absurd hintime hdelay

/-! ## Requests -/

section Requests

variable {m : Type → Type} [Monad m] {envelope : Envelope} {command : DecryptCommand}
  {mediator : Option (Mediator m)}

theorem run_decryptSecret_logged [LawfulMonad m] {i : Inquiry} {ask : Mediator m}
    (h : ComesTo command i) :
    (envelope.decryptSecret command (some ask.logged)).run []
      = (fun outcome ↦ (i.conclude envelope command.timeout outcome, [i.request]))
          <$> ask i.request := by
  have hask : (ask.logged i.request).run []
      = (fun outcome ↦ (outcome, [i.request])) <$> ask i.request := by
    rw [map_eq_pure_bind]
    rfl
  rw [decryptSecret_of_inquiry_eq_ok (inquiry_eq_ok_iff_comesTo.mpr ⟨rfl, h⟩), StateT.run_map,
    hask, Functor.map_map]

theorem run_decryptSecret_logged_of_inquiry {error : EnvelopeError}
    (h : inquiry command mediator.isSome = .error error) :
    (envelope.decryptSecret command (mediator.map Mediator.logged)).run []
      = pure (.error error, []) := by
  rw [decryptSecret_of_inquiry_eq_error (by rwa [Option.isSome_map])]
  rfl

theorem exists_run_decryptSecret_logged (h : mediator = none ∨ ∀ i, ¬ ComesTo command i) :
    ∃ error, EnvelopeError.IsBeforeContact error ∧
      (envelope.decryptSecret command (mediator.map Mediator.logged)).run []
        = pure (.error error, []) := by
  cases hinquiry : inquiry command mediator.isSome with
  | error error =>
    exact ⟨error, isBeforeContact_of_inquiry hinquiry,
      run_decryptSecret_logged_of_inquiry hinquiry⟩
  | ok i =>
    -- An inquiry needs a mediator and a command that comes to it.
    obtain ⟨hmediated, hcomes⟩ := inquiry_eq_ok_iff_comesTo.mp hinquiry
    rcases h with rfl | h
    · cases hmediated
    · exact absurd hcomes (h i)

end Requests

/-! ## The whole call -/

/-- **Contact.** When there is a mediator and the command comes to an inquiry, the mediator is sent
this one request and nothing else: what follows is a fault of the call, of the requester's own
shard or of the shares together, or a plaintext, and the latter exactly when a share arrives in
time that combines with the requester's own to the plaintext and its tag. Otherwise the mediator is
sent nothing, and the fault is one that was found without it; for a requester who is the shared key
or has no shard, it is that one, whatever else is wrong. -/
theorem decryptSecret_contact {m : Type → Type} [Monad m] [LawfulMonad m] (envelope : Envelope)
    (command : DecryptCommand) (mediator : Option (Mediator m)) :
    (∀ ask i, mediator = some ask → ComesTo command i →
      (envelope.decryptSecret command (mediator.map Mediator.logged)).run []
          = (fun outcome ↦ (i.conclude envelope command.timeout outcome, [i.request]))
              <$> ask i.request ∧
      ∀ outcome,
        (∀ error, i.conclude envelope command.timeout outcome = .error error →
          error.IsAfterContact) ∧
        ∀ plaintext, i.conclude envelope command.timeout outcome = .ok plaintext
          ↔ ∃ delay first second, outcome = .answered delay (.ok first) ∧
            delay ≤ command.timeout ∧
            envelope.encryption.decrypt i.ciphertext i.requester = .ok second ∧
            envelope.threshold.combine [first, second]
              = .ok (addTag (Utf8.encodeString plaintext)) ∧ plaintext ≠ "") ∧
    ((mediator = none ∨ ∀ i, ¬ ComesTo command i) →
      ∃ error, EnvelopeError.IsBeforeContact error ∧
        (envelope.decryptSecret command (mediator.map Mediator.logged)).run []
          = pure (.error error, [])) ∧
    ∀ requester secret, command.requester = some requester → mediator.isSome →
      Secret.decode command.encoded = .ok secret →
      (requester.id = command.sharedKeyId ∨ requester.id ∉ secret.keyIds) →
      (envelope.decryptSecret command (mediator.map Mediator.logged)).run []
        = pure (.error (.noMatchingShard requester.id), []) := by
  refine ⟨?_, exists_run_decryptSecret_logged, ?_⟩
  · rintro ask i rfl hcomes
    exact ⟨run_decryptSecret_logged hcomes, fun outcome ↦
      ⟨fun error ↦ isAfterContact_of_conclude, fun plaintext ↦ conclude_eq_ok_iff_answered⟩⟩
  · intro requester secret hrequester hmediator hdecode hforeign
    apply run_decryptSecret_logged_of_inquiry
    obtain ⟨encoded, sharedId, _, timeout⟩ := command
    obtain rfl : _ = some requester := hrequester
    rw [hmediator]
    exact inquiry_eq_noMatchingShard hdecode hforeign

open KeyPair in
theorem decryptSecret_contact_silent :
    (decryptSecret ⟨.labelled, Shamir.scheme⟩
        ⟨Secret.encodeSimple ⟨[⟨one.id, "AAAA"⟩, ⟨two.id, "AAAA"⟩]⟩, one.id, some two, 500⟩
        (some (Mediator.logged fun _ ↦ (pure .silent : Id MediatorOutcome)))).run []
      = pure (.error (.cancelled 500), [⟨"AAAA", one.id⟩]) := by
  have hvalue : IsField "AAAA" := ⟨by decide, by decide, by decide, by decide⟩
  have hsecret : Secret.WellFormed ⟨[⟨one.id, "AAAA"⟩, ⟨two.id, "AAAA"⟩]⟩ := by
    refine ⟨List.cons_ne_nil _ _, ?_, ?_⟩
    · rw [List.forall_mem_cons, List.forall_mem_singleton]
      exact ⟨⟨isField_fingerprint _, hvalue⟩, isField_fingerprint _, hvalue⟩
    · rw [Secret.keyIds, List.map_cons, List.map_singleton, List.nodup_cons]
      exact ⟨by simpa using one_id_ne_two_id, List.nodup_singleton _⟩
  have hvisible : Secret.StartsVisible ⟨[⟨one.id, "AAAA"⟩, ⟨two.id, "AAAA"⟩]⟩ := by
    intro shard hshard c hc
    obtain rfl : ⟨one.id, "AAAA"⟩ = shard := Option.some.inj hshard
    exact isBlank_fingerprint (List.mem_of_mem_head? hc)
  have hcomes : ComesTo ⟨Secret.encodeSimple ⟨[⟨one.id, "AAAA"⟩, ⟨two.id, "AAAA"⟩]⟩, one.id,
      some two, 500⟩ ⟨⟨"AAAA", one.id⟩, two, [0, 0, 0]⟩ := by
    refine ⟨rfl, one_id_ne_two_id.symm, _, ⟨two.id, "AAAA"⟩, ⟨one.id, "AAAA"⟩,
      Secret.decode_encode hsecret hvisible .simple, ?_, ?_, ?_, rfl⟩
    · rw [Secret.find?, List.find?_cons_of_neg (by simpa using one_id_ne_two_id),
        List.find?_cons_of_pos (by simp)]
    · rw [Secret.find?, List.find?_cons_of_pos (by simp)]
    · decide +kernel
  exact ((decryptSecret_contact ⟨.labelled, Shamir.scheme⟩ _
    (some fun _ ↦ (pure .silent : Id MediatorOutcome))).1 _ _ rfl hcomes).1

end Envelope

end DualSeal

import DualSeal.Envelope.Inquiry
import DualSeal.Mediator.Local
import DualSeal.Proofs.Envelope.Contents

/-!
# What decryption accepts

When the mediator's calls do nothing besides ending as the request says, a decryption is a function
of its arguments (`decryptSecret_ofOutcome`). With the holder of the shared key as mediator it
succeeds exactly when the text is a secret with a shard for either pair, both shards open, and the
two shares come to a tagged text (`decryptLocal_eq_ok_iff`).

What was encrypted is therefore given back to its recipients (`decryptLocal_encryptSecret`), and
nobody else has a shard in it (`decryptLocal_encryptSecret_of_notMem`).
-/

namespace DualSeal

/-! ## Finding shards -/

namespace Secret

theorem mem_of_find?_eq_some {secret : Secret} {id : KeyId} {shard : Shard}
    (h : secret.find? id = some shard) : shard ∈ secret.shards ∧ shard.keyId = id := by
  have hid := List.find?_some h
  exact ⟨List.mem_of_find?_eq_some h, of_decide_eq_true hid⟩

theorem find?_eq_none_iff {secret : Secret} {id : KeyId} :
    secret.find? id = none ↔ id ∉ secret.keyIds := by
  rw [find?, List.find?_eq_none, keyIds, List.mem_map]
  constructor
  · rintro h ⟨shard, hshard, hid⟩
    exact h shard hshard (decide_eq_true hid)
  · intro h shard hshard hid
    exact h ⟨shard, hshard, of_decide_eq_true hid⟩

theorem exists_find?_eq_some {secret : Secret} {id : KeyId} (h : id ∈ secret.keyIds) :
    ∃ shard, secret.find? id = some shard := by
  cases hfind : secret.find? id with
  | none => exact absurd h (find?_eq_none_iff.mp hfind)
  | some shard => exact ⟨shard, rfl⟩

end Secret

/-- A mediator whose calls do nothing but end as the request says. -/
def Mediator.ofOutcome {m : Type → Type} [Monad m] (outcome : MediatorRequest → MediatorOutcome) :
    Mediator m :=
  fun request ↦ pure (outcome request)

/-- How the calls of a mediator that holds the shared key end. -/
def LocalMediator.outcome (mediator : LocalMediator) (request : MediatorRequest) :
    MediatorOutcome :=
  .answered 0 (mediator.reply request)

namespace Envelope

/-! ## Tags -/

theorem length_tag (plaintext : Bytes) : (tag plaintext).length = tagLength := by
  rw [tag, List.length_take, Sha256.length_digest]
  rfl

theorem checkTag?_addTag {plaintext : Bytes} (h : plaintext ≠ []) :
    checkTag? (addTag plaintext) = some plaintext := by
  have hpos : 0 < plaintext.length := List.length_pos_iff.mpr h
  have hlength : (addTag plaintext).length = plaintext.length + tagLength := by
    rw [addTag, List.length_append, length_tag]
  have hcut : (addTag plaintext).length - tagLength = plaintext.length := by
    rw [hlength, Nat.add_sub_cancel]
  rw [checkTag?, if_neg (by omega)]
  dsimp only
  rw [hcut, addTag, List.take_left, List.drop_left, if_pos rfl]

theorem openTagged_addTag {plaintext : String} (h : plaintext ≠ "") :
    openTagged (addTag (Utf8.encodeString plaintext)) = .ok plaintext := by
  have hne : Utf8.encodeString plaintext ≠ [] := fun hnil ↦ h (Utf8.encodeString_eq_nil_iff.mp hnil)
  rw [openTagged, checkTag?_addTag hne]
  dsimp only
  rw [Utf8.decodeString_encodeString]

theorem checkTag?_eq_some_iff {tagged plaintext : Bytes} :
    checkTag? tagged = some plaintext ↔ plaintext ≠ [] ∧ tagged = addTag plaintext := by
  refine ⟨fun h ↦ ?_, fun ⟨hne, heq⟩ ↦ heq ▸ checkTag?_addTag hne⟩
  rw [checkTag?] at h
  split at h
  · cases h
  rename_i hlength
  dsimp only at h
  split at h
  · rename_i htag
    cases h
    refine ⟨?_, ?_⟩
    · rw [← List.length_pos_iff, List.length_take]
      omega
    · rw [addTag, htag, List.take_append_drop]
  · cases h

/-- Bytes are taken for a plaintext exactly when they are its bytes and their tag. -/
theorem openTagged_eq_ok_iff {tagged : Bytes} {plaintext : String} :
    openTagged tagged = .ok plaintext
      ↔ tagged = addTag (Utf8.encodeString plaintext) ∧ plaintext ≠ "" := by
  rw [openTagged]
  constructor
  · intro h
    split at h
    · cases h
    rename_i bytes hbytes
    obtain ⟨hne, rfl⟩ := checkTag?_eq_some_iff.mp hbytes
    split at h
    · rename_i text htext
      cases h
      obtain rfl := Utf8.decodeString_eq_ok_iff.mp htext
      exact ⟨rfl, fun hempty ↦ hne (Utf8.encodeString_eq_nil_iff.mpr hempty)⟩
    · cases h
  · rintro ⟨rfl, hne⟩
    exact openTagged_addTag hne

theorem recombine_eq_ok_iff {threshold : ThresholdScheme} {shared own : Share}
    {plaintext : String} :
    recombine threshold shared own = .ok plaintext
      ↔ threshold.combine [shared, own] = .ok (addTag (Utf8.encodeString plaintext)) ∧
        plaintext ≠ "" := by
  rw [recombine]
  cases threshold.combine [shared, own] with
  | error error => exact ⟨nofun, nofun⟩
  | ok tagged =>
    dsimp only
    rw [openTagged_eq_ok_iff, Except.ok.injEq]

/-! ## Decryption as a function -/

theorem decryptSecret_of_inquiry_eq_error {m : Type → Type} [Monad m] {envelope : Envelope}
    {command : DecryptCommand} {mediator : Option (Mediator m)} {error : EnvelopeError}
    (h : inquiry command mediator.isSome = .error error) :
    envelope.decryptSecret command mediator = pure (.error error) := by
  rw [decryptSecret.eq_def, h]

theorem decryptSecret_of_inquiry_eq_ok {m : Type → Type} [Monad m] [LawfulMonad m]
    {envelope : Envelope} {command : DecryptCommand} {ask : Mediator m} {i : Inquiry}
    (h : inquiry command true = .ok i) :
    envelope.decryptSecret command (some ask)
      = i.conclude envelope command.timeout <$> ask i.request := by
  rw [decryptSecret.eq_def, Option.isSome_some, h, map_eq_pure_bind]

/-- What a decryption comes to when the mediator's calls end like this, if there is a mediator. -/
def decryptWith (envelope : Envelope) (command : DecryptCommand)
    (outcome : Option (MediatorRequest → MediatorOutcome)) : Except EnvelopeError String := do
  let inquiry ← inquiry command outcome.isSome
  match outcome with
  | some outcome => inquiry.conclude envelope command.timeout (outcome inquiry.request)
  | none => .error (.insufficientShares .noMediator)

theorem decryptSecret_ofOutcome {m : Type → Type} [Monad m] [LawfulMonad m] (envelope : Envelope)
    (command : DecryptCommand) (outcome : Option (MediatorRequest → MediatorOutcome)) :
    envelope.decryptSecret command (outcome.map Mediator.ofOutcome : Option (Mediator m))
      = pure (envelope.decryptWith command outcome) := by
  cases hinquiry : inquiry command outcome.isSome with
  | error error =>
    rw [decryptSecret_of_inquiry_eq_error (by rwa [Option.isSome_map]), decryptWith, hinquiry,
      error_bind]
  | ok i =>
    cases outcome with
    | none =>
      have hnone : inquiry command false = .ok i := hinquiry
      rw [decryptSecret.eq_def, decryptWith, Option.map_none, Option.isSome_none,
        Option.isSome_none, hnone]
      rfl
    | some outcome =>
      rw [Option.map_some, decryptSecret_of_inquiry_eq_ok hinquiry, decryptWith, hinquiry, ok_bind]
      exact map_pure _ _

/-- A decryption by one key pair with the holder of the shared one as mediator. -/
def decryptLocal (envelope : Envelope) (shared : KeyPair) (encoded : String) (requester : KeyPair)
    (timeout : Milliseconds) : Except EnvelopeError String :=
  envelope.decryptWith ⟨encoded, shared.id, some requester, timeout⟩
    (some (LocalMediator.outcome ⟨shared, envelope.encryption⟩))

theorem exists_requester_of_decryptWith {envelope : Envelope} {encoded : String} {sharedId : KeyId}
    {requester : Option KeyPair} {timeout : Milliseconds}
    {outcome : Option (MediatorRequest → MediatorOutcome)} {plaintext : String}
    (h : envelope.decryptWith ⟨encoded, sharedId, requester, timeout⟩ outcome = .ok plaintext) :
    (∃ pair, requester = some pair) ∧ outcome.isSome := by
  obtain ⟨i, hinquiry, hrest⟩ := bind_eq_ok_iff.mp h
  obtain ⟨secret, -, hinquiry⟩ := bind_eq_ok_iff.mp hinquiry
  cases outcome with
  | none => cases hrest
  | some outcome =>
    cases requester with
    | none => cases hinquiry
    | some pair => exact ⟨⟨pair, rfl⟩, rfl⟩

theorem decryptSecret_toMediator {m : Type → Type} [Monad m] [LawfulMonad m] (envelope : Envelope)
    (shared requester : KeyPair) (encoded : String) (timeout : Milliseconds) :
    envelope.decryptSecret ⟨encoded, shared.id, some requester, timeout⟩
        (some (LocalMediator.toMediator ⟨shared, envelope.encryption⟩ : Mediator m))
      = pure (envelope.decryptLocal shared encoded requester timeout) :=
  decryptSecret_ofOutcome envelope _ (some _)

/-! ## When decryption succeeds -/

variable {envelope : Envelope} {encoded : String} {shared requester : KeyPair}
  {timeout : Milliseconds}

/-- A requester without a shard of their own is told so, and so is the holder of the shared key. -/
theorem inquiry_eq_noMatchingShard {sharedId : KeyId} {secret : Secret}
    (hdecode : Secret.decode encoded = .ok secret)
    (h : requester.id = sharedId ∨ requester.id ∉ secret.keyIds) :
    inquiry ⟨encoded, sharedId, some requester, timeout⟩ true
      = .error (.noMatchingShard requester.id) := by
  by_cases hid : requester.id = sharedId
  · rw [inquiry, hdecode, Except.mapError, ok_bind]
    dsimp only
    rw [if_neg (by decide), if_pos hid, error_bind]
  · have hnone := Secret.find?_eq_none_iff.mpr (h.resolve_left hid)
    rw [inquiry, hdecode, Except.mapError, ok_bind]
    dsimp only
    rw [if_neg (by decide), if_neg hid, hnone]

theorem inquiry_eq_ok_iff {sharedId : KeyId} {i : Inquiry} :
    inquiry ⟨encoded, sharedId, some requester, timeout⟩ true = .ok i
      ↔ requester.id ≠ sharedId ∧ ∃ secret own shared, Secret.decode encoded = .ok secret ∧
        secret.find? requester.id = some own ∧ secret.find? sharedId = some shared ∧
        own.ciphertext = .ok i.ciphertext ∧ i.request = ⟨shared.value, sharedId⟩ ∧
        i.requester = requester := by
  obtain ⟨request, requester', ciphertext⟩ := i
  cases hdecode : Secret.decode encoded with
  | error error =>
    refine ⟨fun h ↦ ?_, nofun⟩
    rw [inquiry, hdecode] at h
    cases h
  | ok secret =>
    -- From here on in the order in which the checks are made.
    by_cases hid : requester.id = sharedId
    · rw [inquiry_eq_noMatchingShard hdecode (.inl hid)]
      exact ⟨nofun, fun h ↦ absurd hid h.1⟩
    rw [inquiry, hdecode, Except.mapError, ok_bind]
    dsimp only
    rw [if_neg (by decide), if_neg hid]
    cases hown : secret.find? requester.id with
    | none =>
      refine ⟨nofun, ?_⟩
      rintro ⟨-, other, own, -, heq, hsome, -⟩
      cases heq
      rw [hown] at hsome
      cases hsome
    | some own =>
      cases hshared : secret.find? sharedId with
      | none =>
        refine ⟨nofun, ?_⟩
        rintro ⟨-, other, -, shared, heq, -, hsome, -⟩
        cases heq
        rw [hshared] at hsome
        cases hsome
      | some shared =>
        obtain ⟨-, rfl⟩ := Secret.mem_of_find?_eq_some hshared
        dsimp only
        rw [bind_eq_ok_iff]
        constructor
        · rintro ⟨bytes, hbytes, hmade⟩
          cases hmade
          have hcipher := mapError_eq_ok_iff.mp hbytes
          exact ⟨hid, secret, own, shared, rfl, hown, hshared, hcipher, rfl, rfl⟩
        · rintro ⟨-, other, own', shared', heq, hown', hshared', hbytes, hrequest, hrequester⟩
          cases heq
          cases hown.symm.trans hown'
          cases hshared.symm.trans hshared'
          refine ⟨ciphertext, mapError_eq_ok_iff.mpr hbytes, ?_⟩
          rw [show request = _ from hrequest, show requester' = _ from hrequester]
          rfl

theorem openShard_eq_ok_iff {mediator : LocalMediator} {request : MediatorRequest} {share : Share} :
    mediator.openShard request = .ok share
      ↔ request.keyId = mediator.sharedKeyId ∧ ∃ ciphertext,
        request.value = Shard.encodeValue ciphertext ∧
        mediator.encryption.decrypt ciphertext mediator.sharedKey = .ok share := by
  rw [LocalMediator.openShard]
  by_cases hid : request.keyId = mediator.sharedKeyId
  · rw [if_neg (not_not_intro hid)]
    cases hvalue : (Shard.mk request.keyId request.value).ciphertext with
    | error fault =>
      refine ⟨nofun, ?_⟩
      rintro ⟨-, ciphertext, hspells, -⟩
      rw [Shard.ciphertext_eq_ok_iff.mpr hspells] at hvalue
      cases hvalue
    | ok ciphertext =>
      have hspells : request.value = Shard.encodeValue ciphertext :=
        Shard.ciphertext_eq_ok_iff.mp hvalue
      -- The value spells this ciphertext only, so there is no choice of another one to open.
      have hopen : (∃ other, request.value = Shard.encodeValue other ∧
          mediator.encryption.decrypt other mediator.sharedKey = .ok share)
            ↔ mediator.encryption.decrypt ciphertext mediator.sharedKey = .ok share := by
        constructor
        · rintro ⟨other, hother, h⟩
          rwa [Shard.encodeValue_injective (hspells.symm.trans hother)]
        · exact fun h ↦ ⟨ciphertext, hspells, h⟩
      rw [hopen]
      dsimp only
      cases mediator.encryption.decrypt ciphertext mediator.sharedKey with
      | error error => exact ⟨nofun, fun h ↦ nomatch h.2⟩
      | ok opened =>
        dsimp only
        rw [Except.ok.injEq, Except.ok.injEq]
        exact ⟨fun h ↦ ⟨hid, h⟩, And.right⟩
  · rw [if_pos hid]
    exact ⟨nofun, fun h ↦ absurd h.1 hid⟩

theorem conclude_eq_ok_iff {i : Inquiry} {reply : MediatorReply} {plaintext : String} :
    i.conclude envelope timeout (.answered 0 reply) = .ok plaintext
      ↔ ∃ first second, reply = .ok first ∧
        envelope.encryption.decrypt i.ciphertext i.requester = .ok second ∧
        recombine envelope.threshold first second = .ok plaintext := by
  rw [Inquiry.conclude.eq_def, MediatorOutcome.within?, if_pos (Nat.zero_le _)]
  cases reply with
  | error error => cases error <;> exact ⟨nofun, nofun⟩
  | ok first =>
    dsimp only
    cases envelope.encryption.decrypt i.ciphertext i.requester with
    | error error => exact ⟨nofun, nofun⟩
    | ok second =>
      constructor
      · exact fun h ↦ ⟨first, second, rfl, rfl, h⟩
      · rintro ⟨_, _, hfirst, hsecond, h⟩
        cases hfirst
        cases hsecond
        exact h

/-- **What decryption accepts.** A secret with a shard for either key pair, both of which open, to
two shares that come to a plaintext with its tag. -/
theorem decryptLocal_eq_ok_iff {plaintext : String} :
    envelope.decryptLocal shared encoded requester timeout = .ok plaintext
      ↔ requester.id ≠ shared.id ∧ ∃ secret sharedCiphertext ciphertext first second,
        Secret.decode encoded = .ok secret ∧
        secret.find? shared.id = some ⟨shared.id, Shard.encodeValue sharedCiphertext⟩ ∧
        secret.find? requester.id = some ⟨requester.id, Shard.encodeValue ciphertext⟩ ∧
        envelope.encryption.decrypt sharedCiphertext shared = .ok first ∧
        envelope.encryption.decrypt ciphertext requester = .ok second ∧
        recombine envelope.threshold first second = .ok plaintext := by
  rw [decryptLocal, decryptWith, bind_eq_ok_iff]
  constructor
  · rintro ⟨i, hinquiry, hconclude⟩
    obtain ⟨hid, secret, ⟨ownId, ownValue⟩, ⟨sharedId, sharedValue⟩, hdecode, hown, hshared,
      hcipher, hrequest, hrequester⟩ := inquiry_eq_ok_iff.mp hinquiry
    obtain ⟨first, second, hreply, hsecond, hrecombine⟩ := conclude_eq_ok_iff.mp hconclude
    rw [LocalMediator.reply, mapError_eq_ok_iff, openShard_eq_ok_iff, hrequest] at hreply
    obtain ⟨-, sharedCiphertext, hspells, hfirst⟩ := hreply
    -- A shard that is found has the id that was looked for, and its value spells its ciphertext.
    have hownId : ownId = requester.id := (Secret.mem_of_find?_eq_some hown).2
    have hsharedId : sharedId = shared.id := (Secret.mem_of_find?_eq_some hshared).2
    have hvalue : ownValue = Shard.encodeValue i.ciphertext := Shard.ciphertext_eq_ok_iff.mp hcipher
    have hsharedValue : sharedValue = Shard.encodeValue sharedCiphertext := hspells
    rw [hownId, hvalue] at hown
    rw [hsharedId, hsharedValue] at hshared
    rw [hrequester] at hsecond
    exact ⟨hid, secret, sharedCiphertext, i.ciphertext, first, second, hdecode, hshared, hown,
      hfirst, hsecond, hrecombine⟩
  · rintro ⟨hid, secret, sharedCiphertext, ciphertext, first, second, hdecode, hshared, hown,
      hfirst, hsecond, hrecombine⟩
    refine ⟨⟨⟨Shard.encodeValue sharedCiphertext, shared.id⟩, requester, ciphertext⟩, ?_, ?_⟩
    · exact inquiry_eq_ok_iff.mpr ⟨hid, secret, _, _, hdecode, hown, hshared,
        Shard.ciphertext_eq_ok_iff.mpr rfl, rfl, rfl⟩
    · refine conclude_eq_ok_iff.mpr ⟨first, second, ?_, hsecond, hrecombine⟩
      rw [LocalMediator.reply, mapError_eq_ok_iff, openShard_eq_ok_iff]
      exact ⟨rfl, sharedCiphertext, rfl, hfirst⟩

theorem decryptLocal_eq_noMatchingShard {secret : Secret}
    (hdecode : Secret.decode encoded = .ok secret)
    (h : requester.id = shared.id ∨ requester.id ∉ secret.keyIds) :
    envelope.decryptLocal shared encoded requester timeout
      = .error (.noMatchingShard requester.id) := by
  rw [decryptLocal, decryptWith, Option.isSome_some, inquiry_eq_noMatchingShard hdecode h,
    error_bind]

/-! ## Decrypting what was encrypted -/

/-- A key that the lookup finds under the pair's id, and that has this fingerprint, is the pair's.
-/
def KnowsPair (lookup : KeyLookup) (pair : KeyPair) : Prop :=
  ∀ key, lookup pair.id = .ok (some key) → key.id = pair.id → key = pair.publicKey

theorem knowsPair_of_lookup {lookup : KeyLookup} {pair : KeyPair}
    (h : lookup pair.id = .ok (some pair.publicKey)) : KnowsPair lookup pair := by
  intro key hkey _
  rw [h] at hkey
  exact (Option.some.inj (Except.ok.inj hkey)).symm

theorem Encloses.opens {encryption : ShareEncryption} {lookup : KeyLookup} {share : Share}
    {shard : Shard} {pair : KeyPair} (h : Encloses encryption lookup share shard)
    (hshare : share.bytes ≠ []) (hid : shard.keyId = pair.id) (hknows : KnowsPair lookup pair)
    (htrips : encryption.RoundTrips pair.publicKey) :
    ∃ ciphertext, shard = ⟨pair.id, Shard.encodeValue ciphertext⟩ ∧
      encryption.decrypt ciphertext pair = .ok share := by
  obtain ⟨id, value⟩ := shard
  obtain rfl : id = pair.id := hid
  obtain ⟨key, random, ciphertext, hlookup, hkey, hencrypt, hvalue⟩ := h
  obtain rfl : key = pair.publicKey := hknows key hlookup hkey
  obtain ⟨-, hdecrypt⟩ := htrips random share ciphertext hshare hencrypt
  exact ⟨ciphertext, congrArg (Shard.mk pair.id) hvalue, hdecrypt pair rfl⟩

section Encrypted

variable {encryption : ShareEncryption} {entropy : EntropySource} {command : EncryptCommand}
  {lookup : KeyLookup}

theorem recombine_of_contains {first second : Share} {secret : Secret}
    (h : Contains encryption command lookup first second secret) :
    recombine Shamir.scheme first second = .ok command.plaintext := by
  rw [recombine, h.combine]
  exact openTagged_addTag h.plaintext_ne

/-- What was encrypted is read as the sealed secret. -/
theorem exists_contains_of_encryptSecret
    (hencrypt : encryptSecret ⟨encryption, Shamir.scheme⟩ entropy command lookup = .ok encoded)
    (htrips : ∀ id ∈ command.sharedKeyId :: command.recipientKeyIds, ∀ key,
      lookup id = .ok (some key) → encryption.RoundTrips key) :
    ∃ first second secret, Secret.decode encoded = .ok secret ∧
      Contains encryption command lookup first second secret := by
  rw [encryptSecret_eq_map_sealSecret, map_eq_ok_iff] at hencrypt
  obtain ⟨secret, hsealed, rfl⟩ := hencrypt
  obtain ⟨first, second, -, hcontains⟩ := contains_of_sealSecret hsealed
  exact ⟨first, second, secret, hcontains.decode_encode htrips command.format, hcontains⟩

/-- **Recipients decrypt.** -/
theorem decryptLocal_encryptSecret
    (hencrypt : encryptSecret ⟨encryption, Shamir.scheme⟩ entropy command lookup = .ok encoded)
    (htrips : ∀ id ∈ command.sharedKeyId :: command.recipientKeyIds, ∀ key,
      lookup id = .ok (some key) → encryption.RoundTrips key)
    (hid : command.sharedKeyId = shared.id) (hmem : requester.id ∈ command.recipientKeyIds)
    (hshared : KnowsPair lookup shared) (hrequester : KnowsPair lookup requester)
    (hsharedTrips : encryption.RoundTrips shared.publicKey)
    (hrequesterTrips : encryption.RoundTrips requester.publicKey) :
    decryptLocal ⟨encryption, Shamir.scheme⟩ shared encoded requester timeout
      = .ok command.plaintext := by
  obtain ⟨first, second, secret, hdecode, hcontains⟩ :=
    exists_contains_of_encryptSecret hencrypt htrips
  have hne : requester.id ≠ shared.id := fun heq ↦ hcontains.fresh (hid ▸ heq ▸ hmem)
  -- The shard for the shared key encloses the first share, the requester's the second.
  obtain ⟨sharedShard, hfindShared⟩ :=
    Secret.exists_find?_eq_some (hcontains.mem_keyIds.mpr (.inl hid.symm))
  obtain ⟨hsharedMem, hsharedId⟩ := Secret.mem_of_find?_eq_some hfindShared
  obtain ⟨sharedCiphertext, rfl, hfirst⟩ :=
    (hcontains.shared sharedShard hsharedMem (hsharedId.trans hid.symm)).opens
      hcontains.first_ne_nil hsharedId hshared hsharedTrips
  obtain ⟨ownShard, hfindOwn⟩ := Secret.exists_find?_eq_some (hcontains.mem_keyIds.mpr (.inr hmem))
  obtain ⟨hownMem, hownId⟩ := Secret.mem_of_find?_eq_some hfindOwn
  obtain ⟨ciphertext, rfl, hsecond⟩ :=
    (hcontains.recipients ownShard hownMem (by rw [hownId, hid]; exact hne)).opens
      hcontains.second_ne_nil hownId hrequester hrequesterTrips
  exact decryptLocal_eq_ok_iff.mpr ⟨hne, secret, sharedCiphertext, ciphertext, first, second,
    hdecode, hfindShared, hfindOwn, hfirst, hsecond, recombine_of_contains hcontains⟩

/-- **Others do not.** -/
theorem decryptLocal_encryptSecret_of_notMem
    (hencrypt : encryptSecret ⟨encryption, Shamir.scheme⟩ entropy command lookup = .ok encoded)
    (htrips : ∀ id ∈ command.sharedKeyId :: command.recipientKeyIds, ∀ key,
      lookup id = .ok (some key) → encryption.RoundTrips key)
    (hid : command.sharedKeyId = shared.id) (hmem : requester.id ∉ command.recipientKeyIds) :
    decryptLocal ⟨encryption, Shamir.scheme⟩ shared encoded requester timeout
      = .error (.noMatchingShard requester.id) := by
  obtain ⟨first, second, secret, hdecode, hcontains⟩ :=
    exists_contains_of_encryptSecret hencrypt htrips
  refine decryptLocal_eq_noMatchingShard hdecode ?_
  -- The shared key has a shard, but is turned away for what it is.
  by_cases heq : requester.id = shared.id
  · exact .inl heq
  · refine .inr fun h ↦ ?_
    rcases hcontains.mem_keyIds.mp h with h | h
    · exact heq (h.trans hid)
    · exact hmem h

end Encrypted

end Envelope

end DualSeal

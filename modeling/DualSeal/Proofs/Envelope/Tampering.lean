import DualSeal.Proofs.Envelope.RoundTrip

/-!
# Texts from elsewhere

Any text at all may be given to a recipient in place of the one that was written. If either key
pair opens nothing but its own shard of the sealed secret, then decryption gives the plaintext or
fails, and it gives the plaintext exactly when the text is read as a secret that has these two
shards as they were. The other shards, their order and the written form make no difference.

Base64 matters here for a second reason: a ciphertext has one spelling, so that there is no other
value that the key pairs would open.
-/

namespace DualSeal

namespace Envelope

variable {encryption : ShareEncryption} {entropy : EntropySource} {command : EncryptCommand}
  {lookup : KeyLookup} {secret : Secret} {shared requester : KeyPair}
  {sharedCiphertext ciphertext : Bytes} {first second : Share}

/-- **Tampering.** -/
theorem decryptLocal_eq_ok_iff_of_opensOnly {text : String} {timeout : Milliseconds}
    {plaintext original : String} (hne : requester.id ≠ shared.id)
    (hshared : encryption.OpensOnly shared sharedCiphertext first)
    (hrequester : encryption.OpensOnly requester ciphertext second)
    (hrecombine : recombine Shamir.scheme first second = .ok original) :
    decryptLocal ⟨encryption, Shamir.scheme⟩ shared text requester timeout = .ok plaintext
      ↔ plaintext = original ∧ ∃ other, Secret.decode text = .ok other ∧
        other.find? shared.id = some ⟨shared.id, Shard.encodeValue sharedCiphertext⟩ ∧
        other.find? requester.id = some ⟨requester.id, Shard.encodeValue ciphertext⟩ := by
  rw [decryptLocal_eq_ok_iff]
  constructor
  · rintro ⟨-, other, sharedOther, ownOther, first', second', hdecode, hfindShared, hfindOwn,
      hfirst, hsecond, hplaintext⟩
    -- What opens is the ciphertext that was sealed, so the values are those that spell it.
    obtain ⟨rfl, rfl⟩ := hshared.decrypt_eq_ok_iff.mp hfirst
    obtain ⟨rfl, rfl⟩ := hrequester.decrypt_eq_ok_iff.mp hsecond
    have hsame : plaintext = original := Except.ok.inj (hplaintext.symm.trans hrecombine)
    exact ⟨hsame, other, hdecode, hfindShared, hfindOwn⟩
  · rintro ⟨rfl, other, hdecode, hfindShared, hfindOwn⟩
    exact ⟨hne, other, sharedCiphertext, ciphertext, first, second, hdecode, hfindShared, hfindOwn,
      hshared.opens, hrequester.opens, hrecombine⟩

/-- **Tampering fails closed.** A secret was sealed for the shared key and the requester among
others, and either of the two opens only its own shard, to its own share. Then no text decrypts to
anything but the plaintext, and a text does so exactly when it is read as a secret in which the two
shards are as they were sealed. In particular the other shards may be any that can be read, in
either written form. -/
theorem decryptSecret_eq_ok_iff_of_opensOnly
    (hsealed : sealSecret ⟨encryption, Shamir.scheme⟩ entropy command lookup = .ok secret)
    (hid : command.sharedKeyId = shared.id) (hmem : requester.id ∈ command.recipientKeyIds)
    (hsharedShard : secret.find? shared.id
      = some ⟨shared.id, Shard.encodeValue sharedCiphertext⟩)
    (hownShard : secret.find? requester.id = some ⟨requester.id, Shard.encodeValue ciphertext⟩)
    (hsplit : splitInTwo Shamir.scheme (entropy 0)
      (addTag (Utf8.encodeString command.plaintext)) = .ok (first, second))
    (hshared : encryption.OpensOnly shared sharedCiphertext first)
    (hrequester : encryption.OpensOnly requester ciphertext second) :
    encryptSecret ⟨encryption, Shamir.scheme⟩ entropy command lookup
      = .ok (secret.encode command.format) ∧
    (∀ (text : String) (timeout : Milliseconds) {m : Type → Type} [Monad m] [LawfulMonad m],
      ∃ outcome : Except EnvelopeError String,
        decryptSecret ⟨encryption, Shamir.scheme⟩ ⟨text, shared.id, some requester, timeout⟩
            (some (LocalMediator.toMediator ⟨shared, encryption⟩ : Mediator m)) = pure outcome ∧
        ∀ plaintext, outcome = .ok plaintext ↔ plaintext = command.plaintext ∧
          ∃ other, Secret.decode text = .ok other ∧
            other.find? shared.id = some ⟨shared.id, Shard.encodeValue sharedCiphertext⟩ ∧
            other.find? requester.id = some ⟨requester.id, Shard.encodeValue ciphertext⟩) ∧
    (∀ other : Secret, other.WellFormed → other.StartsVisible →
      other.find? shared.id = secret.find? shared.id →
      other.find? requester.id = secret.find? requester.id →
      ∀ (format : WireFormat) (timeout : Milliseconds) {m : Type → Type} [Monad m] [LawfulMonad m],
        decryptSecret ⟨encryption, Shamir.scheme⟩
            ⟨other.encode format, shared.id, some requester, timeout⟩
            (some (LocalMediator.toMediator ⟨shared, encryption⟩ : Mediator m))
          = pure (.ok command.plaintext)) := by
  obtain ⟨first', second', hsplit', hcontains⟩ := contains_of_sealSecret hsealed
  obtain ⟨rfl, rfl⟩ := Prod.mk.inj (Except.ok.inj (hsplit'.symm.trans hsplit))
  have hne : requester.id ≠ shared.id := fun heq ↦ hcontains.fresh (hid ▸ heq ▸ hmem)
  have hrecombine := recombine_of_contains hcontains
  refine ⟨?_, ?_, ?_⟩
  · rw [encryptSecret_eq_map_sealSecret, hsealed]
    rfl
  · intro text timeout m _ _
    refine ⟨_, decryptSecret_toMediator _ _ _ _ _, fun plaintext ↦ ?_⟩
    exact decryptLocal_eq_ok_iff_of_opensOnly hne hshared hrequester hrecombine
  · intro other hother hvisible hfindShared hfindOwn format timeout m _ _
    have hdecode := Secret.decode_encode hother hvisible format
    rw [decryptSecret_toMediator, (decryptLocal_eq_ok_iff_of_opensOnly hne hshared hrequester
      hrecombine).mpr ⟨rfl, other, hdecode, hfindShared.trans hsharedShard,
        hfindOwn.trans hownShard⟩]

/-! ## A sealed secret -/

section Attack

open KeyPair

/-- A plaintext for two of the three key pairs, shared by the first. -/
def attack : EncryptCommand := ⟨"attack at dawn", one.id, [two.id, three.id], .simple⟩

/-- Random bytes that count up in sevens. -/
def sevens : Entropy := fun i ↦ UInt8.ofNat (7 * i)

/-- The shares of the tagged plaintext. -/
def attackHalves : Share × Share := halves sevens (addTag (Utf8.encodeString attack.plaintext))

/-- The share that is meant for a key. -/
def attackShare (key : PublicKey) : Share :=
  if key = one.publicKey then attackHalves.1 else attackHalves.2

/-- The ciphertext of that share. -/
def attackCiphertext (key : PublicKey) : Bytes := key.bytes ++ (attackShare key).bytes

def attackShard (pair : KeyPair) : Shard :=
  ⟨pair.id, Shard.encodeValue (attackCiphertext pair.publicKey)⟩

/-- The secret with these shards. -/
def attackSecret : Secret := ⟨[attackShard one, attackShard two, attackShard three]⟩

theorem attackShare_one : attackShare one.publicKey = attackHalves.1 := if_pos rfl

theorem attackShare_two : attackShare two.publicKey = attackHalves.2 := if_neg (by decide +kernel)

theorem attackShare_three : attackShare three.publicKey = attackHalves.2 :=
  if_neg (by decide +kernel)

theorem plan_attack : plan attack (directory publicKeys) = .ok ⟨⟨one.id, one.publicKey⟩,
    [⟨two.id, two.publicKey⟩, ⟨three.id, three.publicKey⟩],
    addTag (Utf8.encodeString attack.plaintext)⟩ := by
  have hresolve : ∀ pair : KeyPair, pair.publicKey ∈ publicKeys →
      resolve (directory publicKeys) pair.id = .ok ⟨pair.id, pair.publicKey⟩ := fun pair hpair ↦
    resolve_eq_ok_iff.mpr ⟨rfl, directory_publicKeys hpair, rfl⟩
  have hthree : three.id ∉ [two.id] := fun h ↦ two_id_ne_three_id (List.mem_singleton.mp h).symm
  have hdistinct : Project.firstOccurrences [] [two.id, three.id] = [two.id, three.id] := by
    rw [Project.firstOccurrences, if_neg List.not_mem_nil, Project.firstOccurrences, if_neg hthree,
      Project.firstOccurrences]
  refine plan_eq_ok_iff.mpr ⟨List.cons_ne_nil _ _, ?_, hresolve one (.head _), ?_, by decide, rfl⟩
  · intro h
    rcases List.mem_cons.mp h with heq | hmem
    · exact one_id_ne_two_id heq
    · exact one_id_ne_three_id (List.mem_singleton.mp hmem)
  · rw [show attack.recipientKeyIds = [two.id, three.id] from rfl, hdistinct]
    exact .cons (hresolve two (.tail _ (.head _)))
      (.cons (hresolve three (.tail _ (.tail _ (.head _)))) .nil)

theorem sealSecret_attack :
    sealSecret ⟨.expecting attackShare, Shamir.scheme⟩ (fun _ ↦ sevens) attack
      (directory publicKeys) = .ok attackSecret := by
  rw [sealSecret, plan_attack, ok_bind, fulfil]
  dsimp only
  rw [splitInTwo_scheme _ (addTag_ne_nil _), ok_bind, attackSecret, attackShard, attackShard,
    attackShard, attackCiphertext, attackCiphertext, attackCiphertext, attackShare_one,
    attackShare_two, attackShare_three]
  rfl

theorem decryptSecret_attack :
    encryptSecret ⟨.expecting attackShare, Shamir.scheme⟩ (fun _ ↦ sevens) attack
      (directory publicKeys) = .ok (attackSecret.encode .simple) ∧
    ∀ (text : String) (timeout : Milliseconds) {m : Type → Type} [Monad m] [LawfulMonad m],
      ∃ outcome : Except EnvelopeError String,
        decryptSecret ⟨.expecting attackShare, Shamir.scheme⟩ ⟨text, one.id, some two, timeout⟩
            (some (LocalMediator.toMediator ⟨one, .expecting attackShare⟩ : Mediator m))
          = pure outcome ∧
        ∀ plaintext, outcome = .ok plaintext ↔ plaintext = "attack at dawn" ∧
          ∃ other, Secret.decode text = .ok other ∧
            other.find? one.id = some (attackShard one) ∧
            other.find? two.id = some (attackShard two) := by
  have hfindOne : attackSecret.find? one.id = some (attackShard one) :=
    List.find?_cons_of_pos (decide_eq_true rfl)
  have hfindTwo : attackSecret.find? two.id = some (attackShard two) := by
    refine (List.find?_cons_of_neg ?_).trans (List.find?_cons_of_pos (decide_eq_true rfl))
    rw [decide_eq_true_eq]
    exact one_id_ne_two_id
  have hsplit : splitInTwo Shamir.scheme sevens (addTag (Utf8.encodeString attack.plaintext))
      = .ok (attackShare one.publicKey, attackShare two.publicKey) := by
    rw [attackShare_one, attackShare_two]
    exact splitInTwo_scheme _ (addTag_ne_nil _)
  have h := decryptSecret_eq_ok_iff_of_opensOnly sealSecret_attack rfl (.head _) hfindOne hfindTwo
    hsplit (ShareEncryption.expecting_opensOnly attackShare one)
    (ShareEncryption.expecting_opensOnly attackShare two)
  exact ⟨h.1, h.2.1⟩

end Attack

end Envelope

end DualSeal

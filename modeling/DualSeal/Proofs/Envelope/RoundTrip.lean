import DualSeal.Proofs.Envelope.Decryption

/-!
# Encryption and decryption

Whatever is encrypted, for whichever recipients and with whatever random bytes, is decrypted by
every recipient whose own key was encrypted for. The share encryption is only expected to accept
the keys that were found and to let the key pairs of these have their shares back.
-/

namespace DualSeal

namespace Envelope

/-- **Round trip.** Encryption succeeds for the shared key and any recipients besides it, and every
recipient under whose id their own key was found decrypts the result with the help of the shared
key's holder, whichever of the two forms it has. -/
theorem decryptSecret_encryptSecret {encryption : ShareEncryption} {shared : KeyPair}
    {plaintext : String} {recipients : List KeyId} {lookup : KeyLookup}
    (hplaintext : plaintext ≠ "") (hne : recipients ≠ []) (hfresh : shared.id ∉ recipients)
    (hshared : lookup shared.id = .ok (some shared.publicKey))
    (hfound : ∀ id ∈ recipients, ∃ key, lookup id = .ok (some key) ∧ key.id = id)
    (haccepts : ∀ id ∈ shared.id :: recipients, ∀ key, lookup id = .ok (some key) →
      encryption.Accepts key)
    (htrips : ∀ id ∈ shared.id :: recipients, ∀ key, lookup id = .ok (some key) →
      encryption.RoundTrips key)
    (format : WireFormat) (entropy : EntropySource) :
    ∃ text,
      encryptSecret ⟨encryption, Shamir.scheme⟩ entropy ⟨plaintext, shared.id, recipients, format⟩
        lookup = .ok text ∧
      ∀ pair : KeyPair, pair.id ∈ recipients → lookup pair.id = .ok (some pair.publicKey) →
        ∀ (timeout : Milliseconds) {m : Type → Type} [Monad m] [LawfulMonad m],
          decryptSecret ⟨encryption, Shamir.scheme⟩ ⟨text, shared.id, some pair, timeout⟩
              (some (LocalMediator.toMediator ⟨shared, encryption⟩ : Mediator m))
            = pure (.ok plaintext) := by
  have hkeys : ∀ id ∈ shared.id :: recipients,
      ∃ key, lookup id = .ok (some key) ∧ key.id = id ∧ encryption.Accepts key := by
    intro id hid
    rcases List.mem_cons.mp hid with rfl | hmem
    · exact ⟨shared.publicKey, hshared, rfl, haccepts _ hid _ hshared⟩
    · obtain ⟨key, hkey, hkeyId⟩ := hfound id hmem
      exact ⟨key, hkey, hkeyId, haccepts id hid key hkey⟩
  -- Sealing depends on the keys alone; the rest is what a secret that was sealed is read as.
  obtain ⟨secret, hsealed⟩ := exists_sealSecret_eq_ok entropy
    ⟨plaintext, shared.id, recipients, format⟩ hplaintext hne hfresh hkeys
  have hencrypt : encryptSecret ⟨encryption, Shamir.scheme⟩ entropy
      ⟨plaintext, shared.id, recipients, format⟩ lookup = .ok (secret.encode format) := by
    rw [encryptSecret_eq_map_sealSecret, hsealed]
    rfl
  refine ⟨_, hencrypt, ?_⟩
  intro pair hpair hown timeout m _ _
  rw [decryptSecret_toMediator, decryptLocal_encryptSecret hencrypt htrips rfl hpair
    (knowsPair_of_lookup hshared) (knowsPair_of_lookup hown)
    (htrips _ List.mem_cons_self _ hshared) (htrips _ (List.mem_cons_of_mem _ hpair) _ hown)]

/-- The lookup that knows these keys and no others. -/
def directory (keys : List PublicKey) : KeyLookup := fun id ↦
  .ok (keys.find? fun key ↦ key.id = id)

theorem directory_eq_ok_some {keys : List PublicKey} {id : KeyId} {key : PublicKey}
    (h : directory keys id = .ok (some key)) : key ∈ keys ∧ key.id = id := by
  have hfind := Except.ok.inj h
  have hid := List.find?_some hfind
  exact ⟨List.mem_of_find?_eq_some hfind, of_decide_eq_true hid⟩

theorem directory_id {keys : List PublicKey} (hnodup : (keys.map PublicKey.id).Nodup)
    {key : PublicKey} (hkey : key ∈ keys) : directory keys key.id = .ok (some key) := by
  cases hfind : directory keys key.id with
  | error error => cases hfind
  | ok found =>
    cases found with
    | none =>
      have hnone := List.find?_eq_none.mp (Except.ok.inj hfind) key hkey
      exact absurd (decide_eq_true rfl) hnone
    | some other =>
      obtain ⟨hother, hid⟩ := directory_eq_ok_some hfind
      rw [List.inj_on_of_nodup_map hnodup hother hkey hid]

end Envelope

/-! ## Three key pairs -/

namespace KeyPair

/-- The key pair of the number one. -/
def one : KeyPair where
  secret := 1
  publicKey := ⟨P256.base⟩
  secret_pos := by decide
  secret_lt := by decide
  public_eq := by decide +kernel

def two : KeyPair where
  secret := 2
  publicKey := ⟨{
    x := 0x7cf27b188d034f7e8a52380304b51ac3c08969e277f21b35a60b48fc47669978
    y := 0x07775510db8ed040293d9ac69f7430dbba7dade63ce982299e04b79d227873d1
    onCurve := by decide +kernel }⟩
  secret_pos := by decide
  secret_lt := by decide
  public_eq := by decide +kernel

def three : KeyPair where
  secret := 3
  publicKey := ⟨{
    x := 0x5ecbe4d1a6330a44c8f7ef951d4bf165e6c6b721efada985fb41661bc6e7fd6c
    y := 0x8734640c4998ff7e374b06ce1a64a2ecd82ab036384fb83d9a79b127a27d5032
    onCurve := by decide +kernel }⟩
  secret_pos := by decide
  secret_lt := by decide
  public_eq := by decide +kernel

/-- The public keys of the three. -/
def publicKeys : List PublicKey := [one.publicKey, two.publicKey, three.publicKey]

theorem nodup_publicKeys_id : (publicKeys.map PublicKey.id).Nodup := by
  decide +kernel

theorem directory_publicKeys {pair : KeyPair} (h : pair.publicKey ∈ publicKeys) :
    Envelope.directory publicKeys pair.id = .ok (some pair.publicKey) :=
  Envelope.directory_id nodup_publicKeys_id h

theorem id_ne_id {a b : KeyPair} (ha : a.publicKey ∈ publicKeys) (hb : b.publicKey ∈ publicKeys)
    (h : a.publicKey ≠ b.publicKey) : a.id ≠ b.id := fun hid ↦
  h (List.inj_on_of_nodup_map nodup_publicKeys_id ha hb hid)

theorem one_id_ne_two_id : one.id ≠ two.id :=
  id_ne_id (.head _) (.tail _ (.head _)) (by decide +kernel)

theorem one_id_ne_three_id : one.id ≠ three.id :=
  id_ne_id (.head _) (.tail _ (.tail _ (.head _))) (by decide +kernel)

theorem two_id_ne_three_id : two.id ≠ three.id :=
  id_ne_id (.tail _ (.head _)) (.tail _ (.tail _ (.head _))) (by decide +kernel)

/-- With labels for encryption, one of the three and a shared key among them are enough. -/
theorem exists_encryptSecret_labelled {shared pair : KeyPair}
    (hshared : shared.publicKey ∈ publicKeys) (hpair : pair.publicKey ∈ publicKeys)
    (hne : shared.id ≠ pair.id) {plaintext : String} (hplaintext : plaintext ≠ "")
    (entropy : EntropySource) (format : WireFormat) :
    ∃ text, Envelope.encryptSecret ⟨.labelled, Shamir.scheme⟩ entropy
      ⟨plaintext, shared.id, [pair.id], format⟩ (Envelope.directory publicKeys) = .ok text := by
  refine Envelope.exists_encryptSecret_eq_ok entropy ⟨plaintext, shared.id, [pair.id], format⟩
    hplaintext (List.cons_ne_nil _ _) (fun hmem ↦ hne (List.mem_singleton.mp hmem)) ?_
  rw [List.forall_mem_cons, List.forall_mem_singleton]
  exact ⟨⟨_, directory_publicKeys hshared, rfl, ShareEncryption.labelled_accepts _⟩,
    _, directory_publicKeys hpair, rfl, ShareEncryption.labelled_accepts _⟩

end KeyPair

namespace Envelope

open KeyPair in
theorem decryptSecret_encryptSecret_labelled :
    ∃ text,
      encryptSecret ⟨.labelled, Shamir.scheme⟩ (fun _ i ↦ UInt8.ofNat (7 * i))
        ⟨"attack at dawn", one.id, [two.id, three.id, two.id], .pem⟩ (directory publicKeys)
          = .ok text ∧
      ∀ pair : KeyPair, pair.id ∈ [two.id, three.id, two.id] →
        directory publicKeys pair.id = .ok (some pair.publicKey) →
        ∀ (timeout : Milliseconds) {m : Type → Type} [Monad m] [LawfulMonad m],
          decryptSecret ⟨.labelled, Shamir.scheme⟩ ⟨text, one.id, some pair, timeout⟩
              (some (LocalMediator.toMediator ⟨one, .labelled⟩ : Mediator m))
            = pure (.ok "attack at dawn") := by
  refine decryptSecret_encryptSecret (by decide) (List.cons_ne_nil _ _) ?_
    (directory_publicKeys (.head _)) ?_ (fun _ _ key _ ↦ ShareEncryption.labelled_accepts key)
    (fun _ _ key _ ↦ ShareEncryption.labelled_roundTrips key) .pem _
  · rw [List.mem_cons, List.mem_cons, List.mem_singleton]
    rintro (h | h | h)
    · exact one_id_ne_two_id h
    · exact one_id_ne_three_id h
    · exact one_id_ne_two_id h
  have htwo : directory publicKeys two.id = .ok (some two.publicKey) :=
    directory_publicKeys (.tail _ (.head _))
  have hthree : directory publicKeys three.id = .ok (some three.publicKey) :=
    directory_publicKeys (.tail _ (.tail _ (.head _)))
  rw [List.forall_mem_cons, List.forall_mem_cons, List.forall_mem_singleton]
  exact ⟨⟨_, htwo, rfl⟩, ⟨_, hthree, rfl⟩, ⟨_, htwo, rfl⟩⟩

end Envelope

end DualSeal

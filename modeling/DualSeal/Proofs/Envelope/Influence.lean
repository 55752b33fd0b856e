import DualSeal.Proofs.Envelope.Contact
import DualSeal.Proofs.Threshold.Influence

/-!
# What a reply does to the plaintext

A decryption puts the mediator's share together with the requester's own, which the text and the
requester determine. As every byte of a share changes the secret, there is at any one point only one
share with which a given plaintext comes out: a mediator cannot do without the half that it holds.

A mediator acts on a state here, and its reply may depend on it. The reply meant is the one that it
gives in the run, to the request that it is sent there (`HandsOver`).
-/

namespace DualSeal.Envelope

/-- In this state, the mediator answers the request that the command comes to with this share. -/
def HandsOver {σ : Type} (command : DecryptCommand) (ask : Mediator (StateM σ)) (state : σ)
    (share : Share) : Prop :=
  ∃ i delay state', ComesTo command i ∧
    (ask i.request).run state = (.answered delay (.ok share), state')

theorem exists_conclude_of_run {σ : Type} {envelope : Envelope} {command : DecryptCommand}
    {ask : Mediator (StateM σ)} {state state' : σ} {plaintext : String}
    (h : (envelope.decryptSecret command (some ask)).run state = (.ok plaintext, state')) :
    ∃ i, ComesTo command i ∧
      i.conclude envelope command.timeout ((ask i.request).run state).1 = .ok plaintext := by
  cases hinquiry : inquiry command (some ask).isSome with
  | error error =>
    rw [decryptSecret_of_inquiry_eq_error hinquiry] at h
    cases congrArg Prod.fst h
  | ok i =>
    rw [decryptSecret_of_inquiry_eq_ok hinquiry] at h
    exact ⟨i, (inquiry_eq_ok_iff_comesTo.mp hinquiry).2, congrArg Prod.fst h⟩

theorem ComesTo.own_eq {first second : DecryptCommand} {i j : Inquiry} (hi : ComesTo first i)
    (hj : ComesTo second j) (hencoded : first.encoded = second.encoded)
    (hrequester : first.requester = second.requester) :
    i.requester = j.requester ∧ i.ciphertext = j.ciphertext := by
  have hpair : i.requester = j.requester :=
    Option.some.inj (hi.requester.symm.trans (hrequester.trans hj.requester))
  obtain ⟨secret, own, -, hdecode, hown, -, hcipher, -⟩ := hi.shards
  obtain ⟨secret', own', -, hdecode', hown', -, hcipher', -⟩ := hj.shards
  cases hdecode.symm.trans ((congrArg _ hencoded).trans hdecode')
  cases hown.symm.trans ((congrArg _ (congrArg _ hpair)).trans hown')
  exact ⟨hpair, Except.ok.inj (hcipher.symm.trans hcipher')⟩

/-- At one point, there is one share that combines with another one to given bytes. -/
theorem eq_of_combine_eq {first second own : Share} {tagged : Bytes}
    (hlast : first.bytes.getLast? = second.bytes.getLast?)
    (hfirst : Shamir.combine [first, own] = .ok tagged)
    (hsecond : Shamir.combine [second, own] = .ok tagged) : first = second := by
  obtain ⟨first⟩ := first
  obtain ⟨second⟩ := second
  refine congrArg Share.mk (List.ext_getElem? fun i ↦ ?_)
  exact not_not.mp (mt (@Shamir.combine_ne_iff [] [own] _ _ _ _ hlast.symm hfirst hsecond i).mpr
    (not_not_intro rfl))

/-- Replies at one point that lead to the same plaintext, for one text and requester, are the same.
-/
theorem exists_handsOver {encryption : ShareEncryption} {command command' : DecryptCommand}
    {σ τ : Type} {ask : Mediator (StateM σ)} {ask' : Mediator (StateM τ)} {s s₁ : σ} {t t₁ : τ}
    {plaintext : String} (hencoded : command.encoded = command'.encoded)
    (hrequester : command.requester = command'.requester)
    (h : (decryptSecret ⟨encryption, Shamir.scheme⟩ command (some ask)).run s
      = (.ok plaintext, s₁))
    (h' : (decryptSecret ⟨encryption, Shamir.scheme⟩ command' (some ask')).run t
      = (.ok plaintext, t₁)) :
    ∃ first second, HandsOver command ask s first ∧ HandsOver command' ask' t second ∧
      (first.bytes.getLast? = second.bytes.getLast? → first = second) := by
  obtain ⟨i, hi, hconclude⟩ := exists_conclude_of_run h
  obtain ⟨j, hj, hconclude'⟩ := exists_conclude_of_run h'
  obtain ⟨delay, first, own, hanswer, -, hown, hcombine, -⟩ :=
    conclude_eq_ok_iff_answered.mp hconclude
  obtain ⟨delay', second, own', hanswer', -, hown', hcombine', -⟩ :=
    conclude_eq_ok_iff_answered.mp hconclude'
  obtain ⟨hpair, hcipher⟩ := hi.own_eq hj hencoded hrequester
  rw [hpair, hcipher] at hown
  obtain rfl : own = own' := Except.ok.inj (hown.symm.trans hown')
  exact ⟨first, second, ⟨i, delay, _, hi, Prod.ext hanswer rfl⟩,
    ⟨j, delay', _, hj, Prod.ext hanswer' rfl⟩,
    fun hlast ↦ eq_of_combine_eq hlast hcombine hcombine'⟩

/-- **Every share matters.** Shares in which one is exchanged for another at the same point come to
secrets that differ exactly where the two shares do; with the others fixed, the rows of one share
and the secrets correspond one to one; and for one text and requester, replies of mediators at the
same point with which the same plaintext comes out are the same reply. -/
theorem every_share_matters :
    (∀ (before after : List Share) (first second : Share) (secret other : Bytes),
      second.bytes.getLast? = first.bytes.getLast? →
      Shamir.combine (before ++ first :: after) = .ok secret →
      Shamir.combine (before ++ second :: after) = .ok other →
      ∀ i : Nat, secret[i]? ≠ other[i]? ↔ first.bytes[i]? ≠ second.bytes[i]?) ∧
    (∀ (before after : List Share) (x : UInt8) (size : Nat) (row : List.Vector UInt8 size)
      (secret : Bytes), Shamir.combine (before ++ Shamir.shareOfRow x row :: after) = .ok secret →
      ∃ f : List.Vector UInt8 size → List.Vector UInt8 size, f.Bijective ∧
        ∀ row, Shamir.combine (before ++ Shamir.shareOfRow x row :: after)
          = .ok (f row).toList) ∧
    ∀ (encryption : ShareEncryption) (command command' : DecryptCommand) (σ τ : Type)
      (ask : Mediator (StateM σ)) (ask' : Mediator (StateM τ)) (s s₁ : σ) (t t₁ : τ)
      (plaintext : String),
      command.encoded = command'.encoded → command.requester = command'.requester →
      (decryptSecret ⟨encryption, Shamir.scheme⟩ command (some ask)).run s
        = (.ok plaintext, s₁) →
      (decryptSecret ⟨encryption, Shamir.scheme⟩ command' (some ask')).run t
        = (.ok plaintext, t₁) →
      ∃ first second, HandsOver command ask s first ∧ HandsOver command' ask' t second ∧
        (first.bytes.getLast? = second.bytes.getLast? → first = second) :=
  ⟨fun _ _ _ _ _ _ hlast hsecret hother ↦ Shamir.combine_ne_iff hlast hsecret hother,
    fun _ _ _ _ _ _ h ↦ Shamir.exists_bijective_combine h,
    fun _ _ _ _ _ _ _ _ _ _ _ _ hencoded hrequester h h' ↦
      exists_handsOver hencoded hrequester h h'⟩

open KeyPair in
/-- One of three shares changes in its second byte; and the same half is handed over twice. -/
theorem every_share_matters_once :
    (∀ i : Nat, ([141, 150] : Bytes)[i]? ≠ ([141, 28] : Bytes)[i]?
      ↔ ([0, 4, 200] : Bytes)[i]? ≠ ([0, 5, 200] : Bytes)[i]?) ∧
    (∃ f : List.Vector UInt8 2 → List.Vector UInt8 2, f.Bijective ∧
      ∀ row, Shamir.combine [⟨[7, 1, 9]⟩, Shamir.shareOfRow 200 row, ⟨[255, 6, 3]⟩]
        = .ok (f row).toList) ∧
    ∃ text, ∃ first second,
      HandsOver ⟨text, one.id, some two, 500⟩
        (LocalMediator.toMediator ⟨one, .labelled⟩ : Mediator (StateM Nat)) 0 first ∧
      HandsOver ⟨text, one.id, some two, 0⟩
        (LocalMediator.toMediator ⟨one, .labelled⟩ : Mediator (StateM Unit)) () second ∧
      (first.bytes.getLast? = second.bytes.getLast? → first = second) := by
  have hbefore : Shamir.combine ([⟨[7, 1, 9]⟩] ++ ⟨[0, 4, 200]⟩ :: [⟨[255, 6, 3]⟩])
      = .ok [141, 150] := by decide +kernel
  have hafter : Shamir.combine ([⟨[7, 1, 9]⟩] ++ ⟨[0, 5, 200]⟩ :: [⟨[255, 6, 3]⟩])
      = .ok [141, 28] := by decide +kernel
  obtain ⟨text, htext⟩ := exists_encryptSecret_labelled (.head _) (.tail _ (.head _))
    one_id_ne_two_id (by decide : "attack at dawn" ≠ "") (fun _ i ↦ UInt8.ofNat (7 * i)) .simple
  have hlocal : ∀ timeout, decryptLocal ⟨.labelled, Shamir.scheme⟩ one text two timeout
      = .ok "attack at dawn" := fun _ ↦
    decryptLocal_encryptSecret htext (fun _ _ key _ ↦ ShareEncryption.labelled_roundTrips key) rfl
      (.head _) (knowsPair_of_lookup (directory_publicKeys (.head _)))
      (knowsPair_of_lookup (directory_publicKeys (.tail _ (.head _))))
      (ShareEncryption.labelled_roundTrips _) (ShareEncryption.labelled_roundTrips _)
  have hrun : ∀ (σ : Type) (state : σ) (timeout : Milliseconds),
      (decryptSecret ⟨.labelled, Shamir.scheme⟩ ⟨text, one.id, some two, timeout⟩
          (some (LocalMediator.toMediator ⟨one, .labelled⟩ : Mediator (StateM σ)))).run state
        = (.ok "attack at dawn", state) := by
    intro σ state timeout
    rw [decryptSecret_toMediator ⟨.labelled, Shamir.scheme⟩ one two, hlocal]
    rfl
  exact ⟨every_share_matters.1 _ _ _ _ _ _ (by decide) hbefore hafter,
    every_share_matters.2.1 [⟨[7, 1, 9]⟩] [⟨[255, 6, 3]⟩] 200 2 ⟨[0, 4], rfl⟩ _ hbefore,
    text, every_share_matters.2.2 .labelled _ _ _ _ _ _ _ _ _ _ _ rfl rfl (hrun Nat 0 500)
      (hrun Unit () 0)⟩

end DualSeal.Envelope

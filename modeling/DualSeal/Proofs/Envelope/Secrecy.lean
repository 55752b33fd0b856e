import DualSeal.Proofs.Envelope.Decryption
import DualSeal.Proofs.Threshold.Secrecy

/-!
# What one half shows

The tagged plaintext of an envelope is cut in two, and either half is one share less than it takes.
So neither the share for the shared key nor the one for the recipients shows anything of the
plaintext but its length, although the tag is a digest of the plaintext: it is cut along with it.
-/

namespace DualSeal.Envelope

open Shamir

/-- The picked one of the two shares of a plaintext with its tag, cut with these draws. -/
def drawHalf {n : Nat} (pick : Share × Share → Share) (plaintext : String)
    (draws : Fin n → UInt8) : Except EnvelopeError Share :=
  (splitInTwo Shamir.scheme (.ofDraws draws) (addTag (Utf8.encodeString plaintext))).map pick

theorem length_addTag (plaintext : Bytes) :
    (addTag plaintext).length = plaintext.length + tagLength := by
  rw [addTag, List.length_append, length_tag]

/-- A share that stands at one point other than zero looks alike for all plaintexts of one length.
-/
theorem drawHalf_lookAlike {pick : Share × Share → Share} {x : UInt8} (hx : x ≠ 0)
    (hpick : ∀ random tagged,
      pick (halves random tagged) = shareAt (polynomials 1 random 0 tagged) x)
    {plaintext other : String} {size : Nat}
    (hplaintext : (Utf8.encodeString plaintext).length = size)
    (hother : (Utf8.encodeString other).length = size) :
    LookAlike (drawHalf pick plaintext : (Fin (size + tagLength) → UInt8) → _)
      (drawHalf pick other) := by
  have hrows := @bijective_rows Unit _ (fun _ ↦ x) (fun _ _ _ ↦ rfl) (fun _ ↦ hx) 1
    (size + tagLength) (size + tagLength) rfl (Nat.one_mul _).symm
  have hlength : ∀ text : String, (Utf8.encodeString text).length = size →
      (addTag (Utf8.encodeString text)).length = size + tagLength := by
    rintro text rfl
    exact length_addTag _
  have hdraw : ∀ text, (htext : (addTag (Utf8.encodeString text)).length = size + tagLength) →
      ∀ draws : Fin (size + tagLength) → UInt8, drawHalf pick text draws
        = .ok (shareOfRow x (rows 1 (fun _ : Unit ↦ x) ⟨addTag (Utf8.encodeString text), htext⟩
          draws ())) := by
    intro text htext draws
    rw [drawHalf, splitInTwo_scheme _ (addTag_ne_nil _), Except.map, hpick]
    rfl
  exact LookAlike.of_bijective
    (fun rows : Unit → List.Vector UInt8 (size + tagLength) ↦ .ok (shareOfRow x (rows ())))
    (fun _ _ h ↦ funext fun _ ↦ shareOfRow_injective x (Except.ok.inj h))
    (hrows ⟨_, hlength _ hplaintext⟩) (hrows ⟨_, hlength _ hother⟩) (hdraw plaintext _)
    (hdraw other _)

theorem splitInTwo_ofDraws {n : Nat} (random : Entropy) {tagged : Bytes} (hn : tagged.length = n) :
    splitInTwo scheme (.ofDraws fun i : Fin n ↦ random i) tagged
      = splitInTwo scheme random tagged := by
  have hsplit : scheme.split (.ofDraws fun i : Fin n ↦ random i) tagged shareCount shareThreshold
      = scheme.split random tagged shareCount shareThreshold := by
    refine split_congr fun i hi ↦ dif_pos ?_
    rwa [shareThreshold, Nat.one_mul, hn] at hi
  rw [splitInTwo, splitInTwo, hsplit]

/-- **Secrecy.** Splitting succeeds and draws one byte less than the threshold for every byte of the
secret, and any shares that are one fewer than the threshold look alike for all secrets of one
length. So a plaintext and its tag are cut in two with one random byte for every byte, and either
share by itself looks alike for all plaintexts of one length. -/
theorem shares_lookAlike :
    (∀ (parts threshold : Nat) (secret other : Bytes) (observed : Finset (Fin parts)),
      2 ≤ threshold → threshold ≤ parts → parts ≤ 255 → secret ≠ [] →
      other.length = secret.length → observed.card + 1 = threshold →
      (∀ random, ∃ shares, split random secret parts threshold = .ok shares ∧
        shares.length = parts ∧
        split (.ofDraws fun i : Fin ((threshold - 1) * secret.length) ↦ random i) secret parts
          threshold = .ok shares) ∧
      LookAlike
        (observe threshold observed secret : (Fin ((threshold - 1) * secret.length) → UInt8) → _)
        (observe threshold observed other)) ∧
    ∀ (size : Nat) (plaintext other : String), (Utf8.encodeString plaintext).length = size →
      (Utf8.encodeString other).length = size →
      (∀ random, ∃ shares,
        splitInTwo scheme random (addTag (Utf8.encodeString plaintext)) = .ok shares ∧
        splitInTwo scheme (.ofDraws fun i : Fin (size + tagLength) ↦ random i)
          (addTag (Utf8.encodeString plaintext)) = .ok shares) ∧
      LookAlike (drawHalf Prod.fst plaintext : (Fin (size + tagLength) → UInt8) → _)
        (drawHalf Prod.fst other) ∧
      LookAlike (drawHalf Prod.snd plaintext : (Fin (size + tagLength) → UInt8) → _)
        (drawHalf Prod.snd other) := by
  constructor
  · intro parts threshold secret other observed htwo hparts hmax hne hlength hobserved
    refine ⟨fun random ↦ ?_, observe_lookAlike htwo hparts hmax (List.length_pos_iff.mpr hne) rfl
      hlength hobserved⟩
    refine ⟨_, split_eq_ok random hne htwo hparts hmax, ?_, ?_⟩
    · rw [List.length_map, points, List.length_map, List.length_range]
    · rw [split_ofDraws, split_eq_ok random hne htwo hparts hmax]
  · rintro size plaintext other rfl hother
    refine ⟨fun random ↦ ⟨_, splitInTwo_scheme random (addTag_ne_nil _), ?_⟩,
      drawHalf_lookAlike (by decide) (fun _ _ ↦ rfl) rfl hother,
      drawHalf_lookAlike (by decide) (fun _ _ ↦ rfl) rfl hother⟩
    rw [splitInTwo_ofDraws random (length_addTag _), splitInTwo_scheme random (addTag_ne_nil _)]

/-- Two of three shares of which all are needed, and the second half of a plaintext. -/
theorem shares_lookAlike_three_of_three :
    LookAlike
        (observe 3 {0, 2} [0xA5, 0x00] :
          (Fin 4 → UInt8) → Except ThresholdError (({0, 2} : Finset (Fin 3)) → Option Share))
        (observe 3 {0, 2} [0x5A, 0x01]) ∧
      LookAlike (drawHalf Prod.snd "attack at dawn" : (Fin 30 → UInt8) → _)
        (drawHalf Prod.snd "stay till noon") :=
  ⟨(shares_lookAlike.1 3 3 [0xA5, 0x00] [0x5A, 0x01] {0, 2} (by decide) (by decide) (by decide)
      (by decide) (by decide) (by decide)).2,
    (shares_lookAlike.2 14 "attack at dawn" "stay till noon" (by decide +kernel)
      (by decide +kernel)).2.2⟩

end DualSeal.Envelope

import DualSeal.Keys.PublicKey

/-!
# The shape of a fingerprint

A fingerprint is thirty-two hexadecimal digits, whatever the key.
-/

namespace DualSeal

theorem Hex.length_digits (bytes : Bytes) : (Hex.digits bytes).length = 2 * bytes.length := by
  induction bytes with
  | nil => rfl
  | cons b bytes ih =>
    rw [Hex.digits, List.flatMap_cons, List.length_append, ← Hex.digits, ih, List.length_cons,
      List.length_cons, List.length_cons, List.length_nil]
    omega

theorem Hex.eq_digit_of_mem_digits {bytes : Bytes} {c : Char} (h : c ∈ Hex.digits bytes) :
    ∃ n < 16, c = Hex.digit n := by
  obtain ⟨b, -, hc⟩ := List.mem_flatMap.mp h
  have hb := b.toNat_lt
  simp only [List.mem_cons, List.not_mem_nil, or_false] at hc
  rcases hc with rfl | rfl
  · exact ⟨b.toNat / 16, by omega, rfl⟩
  · exact ⟨b.toNat % 16, by omega, rfl⟩

namespace KeyId

theorem length_fingerprint (key : Bytes) : (fingerprint key).text.toList.length = 32 := by
  rw [fingerprint, Hex.encode, String.toList_ofList, Hex.length_digits, List.length_take,
    Sha256.length_digest]
  rfl

theorem eq_digit_of_mem_fingerprint {key : Bytes} {c : Char}
    (h : c ∈ (fingerprint key).text.toList) : ∃ n < 16, c = Hex.digit n := by
  rw [fingerprint, Hex.encode, String.toList_ofList] at h
  exact Hex.eq_digit_of_mem_digits h

end KeyId

end DualSeal

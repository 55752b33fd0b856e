import DualSeal.Crypto.Gcm
import DualSeal.Proofs.Chunks

/-!
# Opening a sealed text undoes sealing

Counter mode adds a key stream that does not depend on the message, so that it undoes itself
(`counterMode_counterMode`). What this needs of the cipher is the length of its blocks only: a block
is as long as the round keys, and these are as long as a block (`Aes.length_of_mem_roundKeys`). Of
the tag nothing is needed but its length, and that it depends on the ciphertext, the nonce and the
key.
-/

namespace DualSeal

/-! ## Exclusive or -/

@[simp] theorem Bytes.length_xor (a b : Bytes) : (a.xor b).length = min a.length b.length :=
  List.length_zipWith

theorem Bytes.xor_xor {a b : Bytes} (h : a.length ≤ b.length) : (a.xor b).xor b = a := by
  induction a generalizing b with
  | nil => rfl
  | cons x a ih =>
    obtain ⟨y, b, rfl⟩ := List.exists_cons_of_length_pos (Nat.zero_lt_of_lt h)
    have hrest : xor (xor a b) b = a := ih (Nat.le_of_succ_le_succ h)
    have hfirst : (x ^^^ y) ^^^ y = x := by rw [UInt8.xor_assoc, UInt8.xor_self, UInt8.xor_zero]
    change ((x ^^^ y) ^^^ y) :: xor (xor a b) b = x :: a
    rw [hfirst, hrest]

/-! ## Lengths in the cipher -/

namespace Aes

@[simp] theorem length_shiftRows (block : Bytes) : (shiftRows block).length = block.length := by
  unfold shiftRows
  split <;> rfl

@[simp] theorem length_mixColumns (block : Bytes) : (mixColumns block).length = block.length := by
  induction block using mixColumns.induct with
  | case1 a b c d rest ih => simp [mixColumns, ih]
  | case2 block hshort => rw [mixColumns]; exact hshort

theorem length_rounds {keys : List Bytes} {block : Bytes} {size : Nat}
    (hblock : block.length = size) (hkeys : ∀ key ∈ keys, key.length = size) :
    (rounds block keys).length = size := by
  induction keys generalizing block with
  | nil => exact hblock
  | cons key keys ih =>
    have hkey : key.length = size := hkeys key List.mem_cons_self
    cases keys with
    | nil => simp [rounds, hblock, hkey]
    | cons next keys =>
      rw [rounds]
      · exact ih (by simp [hblock, hkey]) fun other h ↦ hkeys other (List.mem_cons_of_mem _ h)
      · exact List.cons_ne_nil _ _

theorem length_encryptWith {keys : List Bytes} {block : Bytes} {size : Nat}
    (hblock : block.length = size) (hkeys : ∀ key ∈ keys, key.length = size) :
    (encryptWith keys block).length = size := by
  cases keys with
  | nil => exact hblock
  | cons first keys =>
    have hfirst : first.length = size := hkeys first List.mem_cons_self
    exact length_rounds (by simp [hblock, hfirst]) fun key h ↦ hkeys key (List.mem_cons_of_mem _ h)

/-! ## The round keys -/

/-- Eight words of four bytes. -/
structure IsWindow (window : List Bytes) : Prop where
  length : window.length = 8
  words : ∀ word ∈ window, word.length = 4

theorem isWindow_chunks {key : Bytes} (h : key.length = 32) : IsWindow (chunks 4 key) := by
  have hdvd : 4 ∣ key.length := h ▸ ⟨8, rfl⟩
  have hlength := length_chunks (by decide) hdvd
  exact ⟨by omega, fun _ ↦ length_of_mem_chunks (by decide) hdvd⟩

theorem exists_bytes_of_length_eq_four {word : Bytes} (h : word.length = 4) :
    ∃ a b c d, word = [a, b, c, d] :=
  match word, h with
  | [a, b, c, d], _ => ⟨a, b, c, d, rfl⟩

theorem isWindow_nextWords {window : List Bytes} (h : IsWindow window) (rcon : UInt8) :
    IsWindow (nextWords window rcon) := by
  have hword : ∀ i < 8, (window[i]?.getD []).length = 4 := by
    intro i hi
    have hi : i < window.length := h.length.symm ▸ hi
    rw [List.getElem?_eq_getElem hi, Option.getD_some]
    exact h.words _ (List.getElem_mem hi)
  obtain ⟨a, b, c, d, hlast⟩ := exists_bytes_of_length_eq_four (hword 7 (by decide))
  exact ⟨rfl, by simp [nextWords, hlast, hword]⟩

theorem words_expandWords {window : List Bytes} (h : IsWindow window) (rcons : Bytes) :
    (expandWords window rcons).length = 8 * rcons.length ∧
      ∀ word ∈ expandWords window rcons, word.length = 4 := by
  induction rcons generalizing window with
  | nil => exact ⟨rfl, List.forall_mem_nil _⟩
  | cons rcon rcons ih =>
    have hnext := isWindow_nextWords h rcon
    obtain ⟨hlength, hwords⟩ := ih hnext
    refine ⟨?_, fun word hword ↦ ?_⟩
    · rw [expandWords, List.length_append, hnext.length, hlength, List.length_cons]
      omega
    · rcases List.mem_append.mp hword with hword | hword
      · exact hnext.words word hword
      · exact hwords word hword

theorem length_of_mem_roundKeys {key roundKey : Bytes} (h : key.length = 32)
    (hmem : roundKey ∈ roundKeys key) : roundKey.length = 16 := by
  have hwindow := isWindow_chunks h
  obtain ⟨hlength, hwords⟩ := words_expandWords hwindow [0x01, 0x02, 0x04, 0x08, 0x10, 0x20, 0x40]
  obtain ⟨run, hrun, rfl⟩ := List.mem_map.mp (List.mem_of_mem_take hmem)
  have hdvd : 4 ∣ (chunks 4 key ++ expandWords (chunks 4 key)
      [0x01, 0x02, 0x04, 0x08, 0x10, 0x20, 0x40]).length := by
    rw [List.length_append, hwindow.length, hlength]
    decide
  have hrunWords : ∀ word ∈ run, word.length = 4 := by
    intro word hword
    rcases List.mem_append.mp (mem_of_mem_chunksWithin hrun hword) with hword | hword
    · exact hwindow.words word hword
    · exact hwords word hword
  rw [length_flatten_of_forall hrunWords, length_of_mem_chunks (by decide) hdvd hrun]

end Aes

/-! ## Counter mode -/

namespace Gcm

theorem blockSize_pos : 0 < blockSize := by decide

theorem counterMode_of_ne_nil (keys : List Bytes) (nonce : Bytes) (counter : Nat) {message : Bytes}
    (hne : message ≠ []) : counterMode keys nonce counter (chunks blockSize message)
      = Bytes.xor (message.take blockSize) (Aes.encryptWith keys (counterBlock nonce counter)) ++
        counterMode keys nonce (counter + 1) (chunks blockSize (message.drop blockSize)) := by
  rw [chunks_of_ne_nil blockSize_pos hne, counterMode]

section

variable {keys : List Bytes} {nonce : Bytes} (hkeys : ∀ key ∈ keys, key.length = blockSize)
  (hnonce : nonce.length = 12)

include hkeys hnonce

theorem length_encryptWith_counterBlock (counter : Nat) :
    (Aes.encryptWith keys (counterBlock nonce counter)).length = blockSize := by
  refine Aes.length_encryptWith ?_ hkeys
  rw [counterBlock, List.length_append, hnonce, Bytes.length_ofNat]
  rfl

theorem length_counterMode (counter : Nat) (message : Bytes) :
    (counterMode keys nonce counter (chunks blockSize message)).length = message.length := by
  induction message using chunks_induction blockSize_pos generalizing counter with
  | nil => rfl
  | run message hne ih =>
    rw [counterMode_of_ne_nil keys nonce counter hne, List.length_append, ih, Bytes.length_xor,
      length_encryptWith_counterBlock hkeys hnonce, List.length_take, List.length_drop]
    omega

theorem cut_counterMode (counter : Nat) (message : Bytes) :
    (counterMode keys nonce counter (chunks blockSize message)).take blockSize
        = Bytes.xor (message.take blockSize) (Aes.encryptWith keys (counterBlock nonce counter)) ∧
      (counterMode keys nonce counter (chunks blockSize message)).drop blockSize
        = counterMode keys nonce (counter + 1) (chunks blockSize (message.drop blockSize)) := by
  by_cases hne : message = []
  · subst hne
    exact ⟨rfl, rfl⟩
  have hfirst : (Bytes.xor (message.take blockSize)
      (Aes.encryptWith keys (counterBlock nonce counter))).length
      = min blockSize message.length := by
    rw [Bytes.length_xor, length_encryptWith_counterBlock hkeys hnonce, List.length_take]
    omega
  rw [counterMode_of_ne_nil keys nonce counter hne]
  by_cases hshort : message.length ≤ blockSize
  · -- The first block is the only one.
    rw [List.drop_eq_nil_of_le hshort, chunks_nil, counterMode, List.append_nil]
    exact ⟨List.take_of_length_le (by omega), List.drop_eq_nil_of_le (by omega)⟩
  · exact ⟨List.take_left' (by omega), List.drop_left' (by omega)⟩

/-- **Counter mode undoes itself.** -/
theorem counterMode_counterMode (counter : Nat) (message : Bytes) :
    counterMode keys nonce counter
        (chunks blockSize (counterMode keys nonce counter (chunks blockSize message)))
      = message := by
  induction message using chunks_induction blockSize_pos generalizing counter with
  | nil => rfl
  | run message hne ih =>
    have hstream := length_encryptWith_counterBlock hkeys hnonce counter
    have hundone := Bytes.xor_xor
      (Nat.le_trans (List.length_take_le blockSize message) (Nat.le_of_eq hstream.symm))
    have hsealed : counterMode keys nonce counter (chunks blockSize message) ≠ [] := by
      rw [← List.length_pos_iff, length_counterMode hkeys hnonce]
      exact List.length_pos_iff.mpr hne
    obtain ⟨htake, hdrop⟩ := cut_counterMode hkeys hnonce counter message
    rw [counterMode_of_ne_nil keys nonce counter hsealed, htake, hdrop, hundone, ih,
      List.take_append_drop]

theorem length_tag (aad ciphertext : Bytes) :
    (tag keys nonce aad ciphertext).length = blockSize := by
  rw [tag, Bytes.length_xor, Bytes.length_ofNat, length_encryptWith_counterBlock hkeys hnonce,
    Nat.min_self]

end

/-! ## Sealing and opening -/

variable {key nonce aad : Bytes}

theorem length_encrypt (hkey : key.length = 32) (hnonce : nonce.length = 12) (message : Bytes) :
    (encrypt key nonce aad message).length = message.length + blockSize := by
  have hkeys : ∀ roundKey ∈ Aes.roundKeys key, roundKey.length = blockSize :=
    fun _ ↦ Aes.length_of_mem_roundKeys hkey
  rw [encrypt, List.length_append, length_counterMode hkeys hnonce, length_tag hkeys hnonce]

/-- **Opening undoes sealing.** -/
theorem decrypt?_encrypt (hkey : key.length = 32) (hnonce : nonce.length = 12) (message : Bytes) :
    decrypt? key nonce aad (encrypt key nonce aad message) = some message := by
  have hkeys : ∀ roundKey ∈ Aes.roundKeys key, roundKey.length = blockSize :=
    fun _ ↦ Aes.length_of_mem_roundKeys hkey
  have hcut : (encrypt key nonce aad message).length - blockSize
      = (counterMode (Aes.roundKeys key) nonce 2 (chunks blockSize message)).length := by
    rw [length_encrypt hkey hnonce, length_counterMode hkeys hnonce, Nat.add_sub_cancel]
  rw [decrypt?, hcut, encrypt, List.take_left, List.drop_left, if_pos rfl,
    counterMode_counterMode hkeys hnonce]

theorem length_of_decrypt?_eq_some (hkey : key.length = 32) (hnonce : nonce.length = 12)
    {sealed message : Bytes} (h : decrypt? key nonce aad sealed = some message) :
    message.length = sealed.length - blockSize := by
  have hkeys : ∀ roundKey ∈ Aes.roundKeys key, roundKey.length = blockSize :=
    fun _ ↦ Aes.length_of_mem_roundKeys hkey
  rw [decrypt?] at h
  split at h
  · rw [← Option.some.inj h, length_counterMode hkeys hnonce, List.length_take]
    omega
  · cases h

end Gcm

end DualSeal

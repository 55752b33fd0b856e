import DualSeal.Proofs.Threshold.Interpolation
import Mathlib.Data.List.Nodup

/-!
# Reconstruction of a split secret

Splitting succeeds on every secret that is not empty, for every threshold from two on and every
number of parts from the threshold up to 255, and any shares of it that are as many as the
threshold asks for combine to the secret, in whatever order they come (`combine_split`).

A share is a function of its point, so distinct shares stand at distinct points; their rows are
then read column by column, and every column holds the values of one polynomial
(`recoverBytes_shares`).
-/

namespace DualSeal.Shamir

/-! ## Shares -/

theorem length_polynomials (degree : Nat) (random : Entropy) (start : Nat) (secret : Bytes) :
    (polynomials degree random start secret).length = secret.length := by
  induction secret generalizing start with
  | nil => rfl
  | cons byte secret ih => rw [polynomials, List.length_cons, List.length_cons, ih]

theorem length_of_mem_polynomials {degree : Nat} {random : Entropy} {start : Nat} {secret : Bytes}
    {f : List Gf256} (h : f ∈ polynomials degree random start secret) : f.length = degree + 1 := by
  induction secret generalizing start with
  | nil => cases h
  | cons byte secret ih =>
    rcases List.mem_cons.mp h with rfl | h
    · simp [polynomial, Entropy.slice]
    · exact ih h

/-- The polynomials take the bytes of the secret at zero. -/
theorem map_evaluate_zero_polynomials (degree : Nat) (random : Entropy) (start : Nat)
    (secret : Bytes) :
    (polynomials degree random start secret).map (fun f ↦ (evaluate f 0).byte) = secret := by
  induction secret generalizing start with
  | nil => rfl
  | cons byte secret ih => rw [polynomials, List.map_cons, ih, polynomial, evaluate_zero]

@[simp] theorem point_shareAt (fs : List (List Gf256)) (x : UInt8) : point (shareAt fs x) = x := by
  simp [point, shareAt]

@[simp] theorem size_shareAt (fs : List (List Gf256)) (x : UInt8) :
    (shareAt fs x).size = fs.length + 1 := by
  simp [shareAt, Share.size]

theorem split_eq_ok (random : Entropy) {secret : Bytes} {parts threshold : Nat}
    (hsecret : secret ≠ []) (htwo : 2 ≤ threshold) (hparts : threshold ≤ parts)
    (hmax : parts ≤ 255) :
    split random secret parts threshold
      = .ok ((points parts).map (shareAt (polynomials (threshold - 1) random 0 secret))) := by
  have hfault : splitFault? secret parts threshold = none := by
    rw [splitFault?, if_neg (by omega), if_neg (by omega), if_neg (by rw [maxParts]; omega),
      if_neg hsecret]
  rw [split, hfault]

/-! ## The points of shares -/

theorem map_toNat_points {parts : Nat} (h : parts ≤ 255) :
    (points parts).map UInt8.toNat = List.range' 1 parts := by
  rw [points, List.map_map, List.range'_eq_map_range]
  refine List.map_congr_left fun i hi ↦ ?_
  rw [List.mem_range] at hi
  rw [Function.comp_apply, UInt8.toNat_ofNat', Nat.mod_eq_of_lt (by omega), Nat.add_comm]

theorem zero_notMem_points {parts : Nat} (h : parts ≤ 255) : 0 ∉ points parts := by
  intro hmem
  have hzero : (0 : UInt8).toNat ∈ (points parts).map UInt8.toNat := List.mem_map_of_mem hmem
  rw [map_toNat_points h, List.mem_range'] at hzero
  obtain ⟨i, -, hi⟩ := hzero
  rw [UInt8.toNat_zero] at hi
  omega

theorem pointFault?_eq_none_iff {seen xs : Bytes} :
    pointFault? seen xs = none ↔ 0 ∉ xs ∧ xs.Nodup ∧ ∀ x ∈ xs, x ∉ seen := by
  induction xs generalizing seen with
  | nil => simp [pointFault?]
  | cons x xs ih =>
    rw [pointFault?]
    -- A point is at fault if it is zero or was seen before, and else joins those seen.
    by_cases hzero : x = 0
    · simp [hzero]
    by_cases hseen : x ∈ seen
    · simp [hzero, hseen]
    · rw [if_neg hzero, if_neg hseen, ih]
      constructor
      · rintro ⟨h0, hnodup, hfresh⟩
        refine ⟨?_, List.nodup_cons.mpr ⟨?_, hnodup⟩, ?_⟩
        · simp [h0, Ne.symm hzero]
        · exact fun hmem ↦ hfresh x hmem List.mem_cons_self
        · rintro y hy
          rcases List.mem_cons.mp hy with rfl | hy
          · exact hseen
          · exact fun hmem ↦ hfresh y hy (List.mem_cons_of_mem _ hmem)
      · rintro ⟨h0, hnodup, hfresh⟩
        refine ⟨fun hmem ↦ h0 (List.mem_cons_of_mem _ hmem), (List.nodup_cons.mp hnodup).2, ?_⟩
        intro y hy hmem
        rcases List.mem_cons.mp hmem with rfl | hmem
        · exact (List.nodup_cons.mp hnodup).1 hy
        · exact hfresh y (List.mem_cons_of_mem _ hy) hmem

theorem combine_eq_ok {shares : List Share} {size : Nat} (htwo : 2 ≤ shares.length)
    (hsize : ∀ share ∈ shares, share.size = size + 1) (hpos : 0 < size)
    (hzero : 0 ∉ shares.map point) (hnodup : (shares.map point).Nodup) :
    combine shares = .ok (recover shares size) := by
  obtain ⟨first, second, rest, rfl⟩ : ∃ first second rest, shares = first :: second :: rest := by
    match shares, htwo with
    | first :: second :: rest, _ => exact ⟨first, second, rest, rfl⟩
  have hfirst : first.size = size + 1 := hsize first List.mem_cons_self
  have hsame : (second :: rest).any (fun other ↦ other.size ≠ first.size) = false := by
    rw [List.any_eq_false]
    intro other hother
    rw [hsize other (List.mem_cons_of_mem _ hother), hfirst]
    simp
  have hpoints : pointFault? [] ((first :: second :: rest).map point) = none :=
    pointFault?_eq_none_iff.mpr ⟨hzero, hnodup, by simp⟩
  have herror : combineError? (first :: second :: rest) = none := by
    rw [combineError?, if_neg (by omega), hsame, hpoints]
    · simp
    · simp
  rw [combine, herror, List.headD_cons, hfirst, Nat.add_sub_cancel]

/-! ## Columns -/

theorem recoverByte_column {xs f : List Gf256} (hnodup : xs.Nodup)
    (hlength : f.length ≤ xs.length) :
    recoverByte (weights xs) (xs.map fun x ↦ (evaluate f x).byte) = (evaluate f 0).byte := by
  have hcolumn : (xs.map fun x ↦ (evaluate f x).byte)
      = (xs.map (evaluate f)).map Gf256.byte := by
    rw [List.map_map]
    rfl
  rw [recoverByte, Gf256.sum_eq, hcolumn, List.zipWith_map_right,
    ← weighted_sum_evaluate hnodup hlength]

theorem recoverBytes_shares {xs : List Gf256} {fs : List (List Gf256)} (hnodup : xs.Nodup)
    (hlength : ∀ f ∈ fs, f.length ≤ xs.length) :
    recoverBytes (weights xs) fs.length (xs.map fun x ↦ (shareAt fs x.byte).bytes)
      = fs.map fun f ↦ (evaluate f 0).byte := by
  induction fs with
  | nil => rfl
  | cons f fs ih =>
    have hheads : (xs.map fun x ↦ (shareAt (f :: fs) x.byte).bytes).map (·.headD 0)
        = xs.map fun x ↦ (evaluate f x).byte := by
      rw [List.map_map]
      rfl
    have htails : (xs.map fun x ↦ (shareAt (f :: fs) x.byte).bytes).map List.tail
        = xs.map fun x ↦ (shareAt fs x.byte).bytes := by
      rw [List.map_map]
      rfl
    rw [List.length_cons, recoverBytes, hheads, htails, List.map_cons,
      recoverByte_column hnodup (hlength f List.mem_cons_self),
      ih fun g hg ↦ hlength g (List.mem_cons_of_mem _ hg)]

theorem combine_map_shareAt {random : Entropy} {start threshold : Nat} {secret xs : Bytes}
    (hsecret : secret ≠ []) (htwo : 2 ≤ threshold) (hzero : 0 ∉ xs) (hnodup : xs.Nodup)
    (henough : threshold ≤ xs.length) :
    combine (xs.map (shareAt (polynomials (threshold - 1) random start secret)))
      = .ok secret := by
  set fs := polynomials (threshold - 1) random start secret with hfs
  -- What combining reads off the shares: their points, and their rows as functions of the points.
  have hpoints : (xs.map (shareAt fs)).map point = xs := by
    rw [List.map_map]
    exact (List.map_congr_left fun x _ ↦ point_shareAt fs x).trans (List.map_id xs)
  have helements : (xs.map (shareAt fs)).map (fun share ↦ (⟨point share⟩ : Gf256))
      = xs.map Gf256.mk := by
    rw [List.map_map]
    exact List.map_congr_left fun x _ ↦ by rw [Function.comp_apply, point_shareAt]
  have hrows : (xs.map (shareAt fs)).map Share.bytes
      = (xs.map Gf256.mk).map fun x ↦ (shareAt fs x.byte).bytes := by
    rw [List.map_map, List.map_map]
    rfl
  have hfsLength : fs.length = secret.length := length_polynomials _ _ _ _
  have hdistinct : (xs.map Gf256.mk).Nodup := hnodup.map fun a b h ↦ Gf256.mk.inj h
  have hdegree : ∀ f ∈ fs, f.length ≤ (xs.map Gf256.mk).length := by
    intro f hf
    rw [length_of_mem_polynomials hf, List.length_map]
    omega
  rw [@combine_eq_ok _ fs.length (by rw [List.length_map]; omega) (by simp)
    (by rw [hfsLength]; exact List.length_pos_iff.mpr hsecret) (by rwa [hpoints])
    (by rwa [hpoints])]
  rw [recover, helements, hrows, recoverBytes_shares hdistinct hdegree, hfs,
    map_evaluate_zero_polynomials]

/-- Distinct shares of one secret stand at distinct points. -/
theorem eq_map_shareAt_of_subset {fs : List (List Gf256)} {xs : Bytes} {chosen : List Share}
    (hsubset : chosen ⊆ xs.map (shareAt fs)) :
    chosen = (chosen.map point).map (shareAt fs) := by
  rw [List.map_map]
  refine (List.map_id chosen).symm.trans (List.map_congr_left fun share hshare ↦ ?_)
  obtain ⟨x, -, rfl⟩ := List.mem_map.mp (hsubset hshare)
  simp

/-! ## The scheme -/

/-- **Reconstruction.** A secret is split into as many shares as asked for, each a byte longer than
the secret and ending in its number, and any distinct ones that are enough combine to the secret.
-/
theorem combine_split (random : Entropy) {secret : Bytes} {parts threshold : Nat}
    (hsecret : secret ≠ []) (htwo : 2 ≤ threshold) (hparts : threshold ≤ parts)
    (hmax : parts ≤ 255) :
    ∃ shares, split random secret parts threshold = .ok shares ∧
      shares.length = parts ∧
      (∀ share ∈ shares, share.size = secret.length + 1) ∧
      shares.map (fun share ↦ share.bytes.getLast?.map UInt8.toNat)
        = (List.range' 1 parts).map some ∧
      ∀ chosen : List Share, chosen ⊆ shares → chosen.Nodup → threshold ≤ chosen.length →
        combine chosen = .ok secret := by
  refine ⟨_, split_eq_ok random hsecret htwo hparts hmax, ?_, ?_, ?_, ?_⟩
  · rw [List.length_map, ← List.length_map (f := UInt8.toNat), map_toNat_points hmax,
      List.length_range']
  · intro share hshare
    obtain ⟨x, -, rfl⟩ := List.mem_map.mp hshare
    rw [size_shareAt, length_polynomials]
  · rw [← map_toNat_points hmax, List.map_map, List.map_map]
    exact List.map_congr_left fun x _ ↦ by simp [shareAt]
  · intro chosen hsubset hnodup henough
    -- The chosen shares are determined by their points, so these are distinct, too.
    have hchosen := eq_map_shareAt_of_subset hsubset
    rw [hchosen]
    refine combine_map_shareAt hsecret htwo ?_ ?_ (by rwa [List.length_map])
    · intro hzero
      obtain ⟨share, hshare, hpoint⟩ := List.mem_map.mp hzero
      obtain ⟨x, hx, rfl⟩ := List.mem_map.mp (hsubset hshare)
      rw [point_shareAt] at hpoint
      exact zero_notMem_points hmax (hpoint ▸ hx)
    · rw [hchosen] at hnodup
      exact hnodup.of_map _

/-- Two of the three shares of a secret with a zero byte. -/
theorem combine_split_two_of_three :
    (([0xA5, 0x00] : Bytes) ≠ [] ∧ 2 ≤ 2 ∧ 2 ≤ 3 ∧ 3 ≤ 255) ∧
      ∃ shares, split (fun i ↦ UInt8.ofNat (37 * i)) [0xA5, 0x00] 3 2 = .ok shares ∧
        shares.length = 3 ∧ (∀ share ∈ shares, share.size = 3) ∧
        shares.map (fun share ↦ share.bytes.getLast?.map UInt8.toNat) = [some 1, some 2, some 3] ∧
        ∀ chosen : List Share, chosen ⊆ shares → chosen.Nodup → 2 ≤ chosen.length →
          combine chosen = .ok [0xA5, 0x00] :=
  ⟨by decide, combine_split _ (by decide) (by decide) (by decide) (by decide)⟩

end DualSeal.Shamir

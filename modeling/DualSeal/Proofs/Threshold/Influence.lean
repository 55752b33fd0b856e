import DualSeal.Proofs.Threshold.Combination
import DualSeal.Proofs.Threshold.Secrecy

/-!
# What one share does to the secret

The factor of a share in the sum that a recovered byte is depends on the points only, and it is not
zero when the points are not: it is a product of quotients of points and of differences of distinct
points (`eval_zero_basis_ne_zero`). So a share that changes in some bytes changes the secret in the
same positions and in no others (`combine_ne_iff`), and with the other shares fixed every secret of
the right length comes from exactly one row of bytes (`exists_bijective_combine`).
-/

namespace DualSeal.Shamir

theorem eval_zero_basis_ne_zero {points : Finset Gf256} (h : 0 ∉ points) (own : Gf256) :
    (Lagrange.basis points id own).eval 0 ≠ 0 := by
  rw [eval_zero_basis, Finset.prod_ne_zero_iff]
  intro x hx
  obtain ⟨hne, hx⟩ := Finset.mem_erase.mp hx
  exact div_ne_zero (fun hzero ↦ h (hzero ▸ hx)) (sub_ne_zero.mpr hne)

/-! ## One share for another -/

section Change

variable {before after : List Share} {first second : Share} {size : Nat}

theorem exists_mem_others (h : Combinable (before ++ first :: after) size) :
    ∃ other, other ∈ before ++ after := by
  have htwo := h.two_le_length
  rw [List.length_append, List.length_cons] at htwo
  refine List.exists_mem_of_length_pos ?_
  rw [List.length_append]
  omega

theorem Combinable.change (h : Combinable (before ++ first :: after) size)
    (hsize : second.size = size) (hlast : second.bytes.getLast? = first.bytes.getLast?) :
    Combinable (before ++ second :: after) size where
  two_le_length := by simpa using h.two_le_length
  two_le_size := h.two_le_size
  sizes := by
    have hsizes := h.sizes
    rw [List.forall_mem_append, List.forall_mem_cons] at hsizes ⊢
    exact ⟨hsizes.1, hsize, hsizes.2.2⟩
  nonzero := by
    have hnonzero := h.nonzero
    rw [List.forall_mem_append, List.forall_mem_cons] at hnonzero ⊢
    exact ⟨hnonzero.1, hlast ▸ hnonzero.2.1, hnonzero.2.2⟩
  distinct := by
    have hdistinct := h.distinct
    rw [List.map_append, List.map_cons] at hdistinct ⊢
    rwa [hlast]

/-- The sizes of two shares are the same if either combines with the same others. -/
theorem Combinable.size_eq_of_change {size' : Nat} (h : Combinable (before ++ first :: after) size)
    (h' : Combinable (before ++ second :: after) size') : size' = size := by
  obtain ⟨other, hother⟩ := exists_mem_others h
  have hmem : ∀ share, other ∈ before ++ share :: after := by
    intro share
    rcases List.mem_append.mp hother with hother | hother
    · exact List.mem_append_left _ hother
    · exact List.mem_append_right _ (List.mem_cons_of_mem _ hother)
  exact (h'.sizes other (hmem second)).symm.trans (h.sizes other (hmem first))

/-- A recovered byte stays the same exactly when the share's byte in its position does. -/
theorem recoverByte_change (h : Combinable (before ++ first :: after) size)
    (h' : Combinable (before ++ second :: after) size)
    (hlast : second.bytes.getLast? = first.bytes.getLast?) (i : Nat) :
    recoverByte (weights ((before ++ first :: after).map fun share ↦ ⟨point share⟩))
          (column (before ++ first :: after) i)
        = recoverByte (weights ((before ++ second :: after).map fun share ↦ ⟨point share⟩))
          (column (before ++ second :: after) i)
      ↔ first.bytes.getD i 0 = second.bytes.getD i 0 := by
  have hpoint : point second = point first := by
    rw [point, point, List.getLastD_eq_getLast?, List.getLastD_eq_getLast?, hlast]
  have hpoints : ((before ++ second :: after).map fun share ↦ (⟨point share⟩ : Gf256)).toFinset
      = ((before ++ first :: after).map fun share ↦ (⟨point share⟩ : Gf256)).toFinset := by
    simp [hpoint]
  have hzero : (0 : Gf256)
      ∉ ((before ++ first :: after).map fun share ↦ (⟨point share⟩ : Gf256)).toFinset := by
    rw [List.mem_toFinset, List.mem_map]
    rintro ⟨share, hshare, heq⟩
    exact h.zero_notMem (List.mem_map.mpr ⟨share, hshare, congrArg Gf256.byte heq⟩)
  have hfactor := eval_zero_basis_ne_zero hzero ⟨point first⟩
  -- Both bytes are sums that differ in one summand at most.
  rw [recoverByte_eq_sum i h.nodup_elements, recoverByte_eq_sum i h'.nodup_elements, hpoints]
  generalize ((before ++ first :: after).map fun share ↦ (⟨point share⟩ : Gf256)).toFinset = points
    at hfactor
  rw [List.map_append, List.map_append, List.sum_append, List.sum_append, List.map_cons,
    List.map_cons, List.sum_cons, List.sum_cons, hpoint]
  constructor
  · intro heq
    have hsum := add_right_cancel (add_left_cancel (congrArg Gf256.mk heq))
    exact Gf256.mk.inj (mul_right_cancel₀ hfactor hsum)
  · intro heq
    rw [heq]

theorem recover_change (h : Combinable (before ++ first :: after) (size + 1))
    (h' : Combinable (before ++ second :: after) (size + 1))
    (hlast : second.bytes.getLast? = first.bytes.getLast?) (i : Nat) :
    (recover (before ++ first :: after) size)[i]? = (recover (before ++ second :: after) size)[i]?
      ↔ first.bytes[i]? = second.bytes[i]? := by
  have hfirst : first.bytes.length = size + 1 := h.sizes first (by simp)
  have hsecond : second.bytes.length = size + 1 := h'.sizes second (by simp)
  rw [recover_eq_map, recover_eq_map, List.getElem?_map, List.getElem?_map]
  rcases lt_trichotomy i size with hlt | rfl | hgt
  · rw [List.getElem?_range hlt, Option.map_some, Option.map_some, Option.some.injEq,
      recoverByte_change h h' hlast, List.getD_eq_getElem _ _ (by omega),
      List.getD_eq_getElem _ _ (by omega), List.getElem?_eq_getElem (by omega),
      List.getElem?_eq_getElem (by omega), Option.some.injEq]
  -- In the last position there is the point, and nothing of the secret; behind it there is nothing.
  · rw [List.getElem?_eq_none (by simp)]
    rw [List.getLast?_eq_getElem?, List.getLast?_eq_getElem?, hfirst, hsecond,
      Nat.add_sub_cancel] at hlast
    simp [hlast]
  · rw [List.getElem?_eq_none (by simp; omega), List.getElem?_eq_none (by omega),
      List.getElem?_eq_none (by omega)]
    simp

/-- **A changed share changes the secret,** in the positions in which it changes and no others. -/
theorem combine_ne_iff {secret other : Bytes}
    (hlast : second.bytes.getLast? = first.bytes.getLast?)
    (hsecret : combine (before ++ first :: after) = .ok secret)
    (hother : combine (before ++ second :: after) = .ok other) (i : Nat) :
    secret[i]? ≠ other[i]? ↔ first.bytes[i]? ≠ second.bytes[i]? := by
  obtain ⟨h, hrecover⟩ := combine_eq_ok_iff.mp hsecret
  obtain ⟨h', hrecover'⟩ := combine_eq_ok_iff.mp hother
  have hlength : other.length = secret.length :=
    Nat.add_right_cancel (h.size_eq_of_change h')
  rw [hlength] at h' hrecover'
  rw [hrecover, hrecover']
  exact not_congr (recover_change h h' hlast i)

end Change

/-! ## All rows of one share -/

/-- The secret that shares come to when the one at a point has this row. -/
def secretOf {size : Nat} (before after : List Share) (x : UInt8) (row : List.Vector UInt8 size) :
    List.Vector UInt8 size :=
  ⟨recover (before ++ shareOfRow x row :: after) size, length_recover _ _⟩

/-- **A share can make anything of the others,** in one way: with the others fixed, rows of bytes
and secrets correspond one to one. -/
theorem exists_bijective_combine {before after : List Share} {x : UInt8} {size : Nat}
    {row : List.Vector UInt8 size} {secret : Bytes}
    (h : combine (before ++ shareOfRow x row :: after) = .ok secret) :
    ∃ f : List.Vector UInt8 size → List.Vector UInt8 size, f.Bijective ∧
      ∀ row, combine (before ++ shareOfRow x row :: after) = .ok (f row).toList := by
  have hsize : ∀ row : List.Vector UInt8 size, (shareOfRow x row).size = size + 1 := by
    intro row
    simp [shareOfRow, Share.size]
  have hlast : ∀ row : List.Vector UInt8 size, (shareOfRow x row).bytes.getLast? = some x := by
    intro row
    simp [shareOfRow]
  obtain ⟨hcombinable, -⟩ := combine_eq_ok_iff.mp h
  have hlength : secret.length + 1 = size + 1 := by
    rw [← hcombinable.sizes (shareOfRow x row) (by simp), hsize]
  rw [hlength] at hcombinable
  have hall : ∀ row : List.Vector UInt8 size,
      Combinable (before ++ shareOfRow x row :: after) (size + 1) := fun other ↦
    hcombinable.change (hsize other) ((hlast other).trans (hlast row).symm)
  -- There are as many rows as secrets, so that it is enough that no two rows make one secret.
  have hinjective : (secretOf before after x : List.Vector UInt8 size → _).Injective := by
    intro first second heq
    have hrecover : recover (before ++ shareOfRow x first :: after) size
        = recover (before ++ shareOfRow x second :: after) size := congrArg List.Vector.toList heq
    have hbytes : (shareOfRow x first).bytes = (shareOfRow x second).bytes := by
      refine List.ext_getElem? fun i ↦ ?_
      rw [← recover_change (hall first) (hall second) ((hlast second).trans (hlast first).symm) i,
        hrecover]
    exact shareOfRow_injective x (congrArg Share.mk hbytes)
  exact ⟨secretOf before after x, Finite.injective_iff_bijective.mp hinjective,
    fun row ↦ combine_of_combinable (hall row)⟩

end DualSeal.Shamir

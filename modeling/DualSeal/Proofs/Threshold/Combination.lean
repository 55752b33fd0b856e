import DualSeal.Proofs.Threshold.Reconstruction
import Mathlib.Data.List.GetD

/-!
# Combining any shares

Shares come from the network and out of ciphertexts that anybody may have made, so `combine` has to
do with lists of byte strings that no splitting ever produced. It accepts exactly those of which
there are two, of one size with room for a byte besides the point, at distinct points other than
zero; and what it makes of them does not depend on their order (`combine_any`).

The library computes with total functions, where a byte that is not there is zero and so is the
inverse of zero. That nothing depends on these conventions is a statement of its own:
`Guarded.combine?` goes through the same steps with every access and every division guarded, and
never comes to a guard that fails (`Guarded.combine?_eq`).
-/

namespace DualSeal.Shamir

/-! ## Columns -/

/-- Recovered bytes stand in the order of the columns they come from. -/
theorem recoverBytes_eq_map (ws : List Gf256) (size : Nat) (rows : List Bytes) :
    recoverBytes ws size rows
      = (List.range size).map fun i ↦ recoverByte ws (rows.map (·.getD i 0)) := by
  induction size generalizing rows with
  | zero => rfl
  | succ size ih =>
    have hhead : ∀ row : Bytes, row.headD 0 = row.getD 0 0 := fun row ↦ by cases row <;> rfl
    have htail : ∀ (row : Bytes) (i : Nat), row.tail.getD i 0 = row.getD (i + 1) 0 :=
      fun row i ↦ by cases row <;> rfl
    rw [recoverBytes, ih, List.range_succ_eq_map, List.map_cons, List.map_map]
    simp only [hhead, List.map_map, Function.comp_def, htail]

/-- The byte that shares have in one position. -/
def column (shares : List Share) (i : Nat) : Bytes := shares.map fun share ↦ share.bytes.getD i 0

theorem recover_eq_map (shares : List Share) (size : Nat) :
    recover shares size = (List.range size).map fun i ↦
      recoverByte (weights (shares.map fun share ↦ ⟨point share⟩)) (column shares i) := by
  rw [recover, recoverBytes_eq_map]
  simp only [List.map_map]
  rfl

@[simp] theorem length_recover (shares : List Share) (size : Nat) :
    (recover shares size).length = size := by
  rw [recover_eq_map, List.length_map, List.length_range]

/-- A recovered byte is a sum over the shares, in which the factor of a share depends on its point
and on the set of all points only. -/
theorem recoverByte_eq_sum {shares : List Share} (i : Nat)
    (hnodup : (shares.map fun share ↦ (⟨point share⟩ : Gf256)).Nodup) :
    recoverByte (weights (shares.map fun share ↦ ⟨point share⟩)) (column shares i)
      = (shares.map fun share ↦ Gf256.mk (share.bytes.getD i 0) *
          (Lagrange.basis (shares.map fun share ↦ (⟨point share⟩ : Gf256)).toFinset id
            ⟨point share⟩).eval 0).sum.byte := by
  rw [recoverByte, Gf256.sum_eq, weights_eq_map hnodup, column, List.map_map, List.zipWith_map,
    List.zipWith_self]
  rfl

/-! ## What combines -/

/-- There are at least two shares, of one size that leaves room for a byte besides the point, and
the points, which are their last bytes, are not zero and differ from each other. -/
structure Combinable (shares : List Share) (size : Nat) : Prop where
  two_le_length : 2 ≤ shares.length
  two_le_size : 2 ≤ size
  sizes : ∀ share ∈ shares, share.size = size
  nonzero : ∀ share ∈ shares, share.bytes.getLast? ≠ some 0
  distinct : (shares.map fun share ↦ share.bytes.getLast?).Nodup

theorem getLast?_eq_point {share : Share} (h : share.bytes ≠ []) :
    share.bytes.getLast? = some (point share) := by
  rw [point, List.getLast?_eq_some_getLast h, List.getLastD_eq_getLast?,
    List.getLast?_eq_some_getLast h, Option.getD_some]

theorem ne_nil_of_size {share : Share} {size : Nat} (h : share.size = size) (hpos : 0 < size) :
    share.bytes ≠ [] := by
  rw [← List.length_pos_iff]
  exact hpos.trans_eq h.symm

/-- In shares that are not empty, what is asked of their last bytes is asked of their points. -/
theorem points_iff {shares : List Share} (h : ∀ share ∈ shares, share.bytes ≠ []) :
    (0 ∉ shares.map point ∧ (shares.map point).Nodup) ↔
      (∀ share ∈ shares, share.bytes.getLast? ≠ some 0) ∧
        (shares.map fun share ↦ share.bytes.getLast?).Nodup := by
  have hlast : (shares.map fun share ↦ share.bytes.getLast?) = (shares.map point).map some := by
    rw [List.map_map]
    exact List.map_congr_left fun share hshare ↦ getLast?_eq_point (h share hshare)
  have hzero : 0 ∉ shares.map point ↔ ∀ share ∈ shares, share.bytes.getLast? ≠ some 0 := by
    rw [List.mem_map, not_exists]
    refine forall_congr' fun share ↦ ?_
    rw [not_and]
    refine forall_congr' fun hshare ↦ ?_
    rw [getLast?_eq_point (h share hshare), ne_eq, Option.some.injEq]
  rw [hlast, hzero, List.nodup_map_iff (Option.some_injective _)]

namespace Combinable

variable {shares other : List Share} {size : Nat}

theorem ne_nil (h : Combinable shares size) : ∀ share ∈ shares, share.bytes ≠ [] :=
  fun share hshare ↦ ne_nil_of_size (h.sizes share hshare)
    (Nat.lt_of_lt_of_le Nat.zero_lt_two h.two_le_size)

theorem zero_notMem (h : Combinable shares size) : 0 ∉ shares.map point :=
  ((points_iff h.ne_nil).mpr ⟨h.nonzero, h.distinct⟩).1

theorem nodup_points (h : Combinable shares size) : (shares.map point).Nodup :=
  ((points_iff h.ne_nil).mpr ⟨h.nonzero, h.distinct⟩).2

theorem nodup_elements (h : Combinable shares size) :
    (shares.map fun share ↦ (⟨point share⟩ : Gf256)).Nodup := by
  have hmap := h.nodup_points.map fun a b (hab : Gf256.mk a = Gf256.mk b) ↦ Gf256.mk.inj hab
  rwa [List.map_map] at hmap

theorem perm (hperm : other.Perm shares) (h : Combinable shares size) : Combinable other size where
  two_le_length := hperm.length_eq ▸ h.two_le_length
  two_le_size := h.two_le_size
  sizes share hshare := h.sizes share (hperm.subset hshare)
  nonzero share hshare := h.nonzero share (hperm.subset hshare)
  distinct := (hperm.map _).nodup_iff.mpr h.distinct

/-- Shares come to the same bytes in every order. -/
theorem recover_perm (hperm : other.Perm shares) (h : Combinable shares size) (length : Nat) :
    recover other length = recover shares length := by
  have hpoints : (other.map fun share ↦ (⟨point share⟩ : Gf256)).toFinset
      = (shares.map fun share ↦ (⟨point share⟩ : Gf256)).toFinset :=
    List.toFinset_eq_of_perm _ _ (hperm.map _)
  rw [recover_eq_map, recover_eq_map]
  refine List.map_congr_left fun i _ ↦ ?_
  rw [recoverByte_eq_sum i h.nodup_elements, recoverByte_eq_sum i (h.perm hperm).nodup_elements,
    hpoints, (hperm.map _).sum_eq]

end Combinable

/-! ## What becomes of shares -/

theorem combine_of_combinable {shares : List Share} {size : Nat}
    (h : Combinable shares (size + 1)) : combine shares = .ok (recover shares size) :=
  combine_eq_ok h.two_le_length h.sizes (Nat.le_of_succ_le_succ h.two_le_size) h.zero_notMem
    h.nodup_points

/-- The checks in their order: the first share's size, the others' sizes, the points. -/
theorem combineError?_cons (first : Share) {rest : List Share} (hrest : rest ≠ []) :
    combineError? (first :: rest)
      = if first.size < 2 then some (.malformed (.tooShort first.size))
        else if rest.any (fun other ↦ other.size ≠ first.size) then
          some (.malformed .lengthsDiffer)
        else (pointFault? [] ((first :: rest).map point)).map .malformed := by
  obtain ⟨second, rest, rfl⟩ := List.exists_cons_of_ne_nil hrest
  rw [combineError?]
  simp

theorem sizes_of_any_eq_false {first : Share} {rest : List Share}
    (h : ¬ rest.any (fun other ↦ other.size ≠ first.size) = true) :
    ∀ share ∈ first :: rest, share.size = first.size := by
  refine List.forall_mem_cons.mpr ⟨rfl, fun other hother ↦ ?_⟩
  by_contra hne
  exact h (List.any_eq_true.mpr ⟨other, hother, decide_eq_true hne⟩)

theorem combinable_of_pointFault? {shares : List Share} {size : Nat} (htwo : 2 ≤ shares.length)
    (hsize : 2 ≤ size) (hsizes : ∀ share ∈ shares, share.size = size)
    (hpoints : pointFault? [] (shares.map point) = none) : Combinable shares size := by
  obtain ⟨hzero, hnodup, -⟩ := pointFault?_eq_none_iff.mp hpoints
  have hne : ∀ share ∈ shares, share.bytes ≠ [] := fun share hshare ↦
    ne_nil_of_size (hsizes share hshare) (by omega)
  obtain ⟨hnonzero, hdistinct⟩ := (points_iff hne).mp ⟨hzero, hnodup⟩
  exact ⟨htwo, hsize, hsizes, hnonzero, hdistinct⟩

/-- The three ends that combining may come to: too few shares, shares with a fault, a secret. -/
theorem combine_cases (shares : List Share) :
    (shares.length < 2 ∧ combine shares = .error (.insufficientShares shares.length)) ∨
      (2 ≤ shares.length ∧ (∀ size, ¬ Combinable shares size) ∧
        ∃ fault, combine shares = .error (.malformed fault)) ∨
      ∃ size, Combinable shares (size + 1) ∧ combine shares = .ok (recover shares size) := by
  match shares with
  | [] => exact .inl ⟨Nat.zero_lt_two, rfl⟩
  | [_] => exact .inl ⟨Nat.one_lt_two, rfl⟩
  | first :: second :: rest =>
    right
    have htwo : 2 ≤ (first :: second :: rest).length := Nat.le_add_left 2 rest.length
    have herror := combineError?_cons first (List.cons_ne_nil second rest)
    generalize second :: rest = others at htwo herror
    by_cases hshort : first.size < 2
    · refine .inl ⟨htwo, fun size h ↦ ?_, ⟨_, by rw [combine, herror, if_pos hshort]⟩⟩
      exact absurd (h.sizes first List.mem_cons_self ▸ h.two_le_size) (by omega)
    rw [if_neg hshort] at herror
    by_cases hdiffer : others.any (fun other ↦ other.size ≠ first.size) = true
    · refine .inl ⟨htwo, fun size h ↦ ?_, ⟨_, by rw [combine, herror, if_pos hdiffer]⟩⟩
      obtain ⟨other, hother, hne⟩ := List.any_eq_true.mp hdiffer
      exact absurd ((h.sizes other (List.mem_cons_of_mem _ hother)).trans
        (h.sizes first List.mem_cons_self).symm) (of_decide_eq_true hne)
    rw [if_neg hdiffer] at herror
    cases hpoint : pointFault? [] ((first :: others).map point) with
    | some fault =>
      refine .inl ⟨htwo, fun size h ↦ ?_, ⟨fault, by rw [combine, herror, hpoint]; rfl⟩⟩
      have hnone : pointFault? [] ((first :: others).map point) = none :=
        pointFault?_eq_none_iff.mpr ⟨h.zero_notMem, h.nodup_points, by simp⟩
      rw [hpoint] at hnone
      cases hnone
    | none =>
      obtain ⟨size, hsize⟩ : ∃ size, first.size = size + 1 := ⟨first.size - 1, by omega⟩
      have hcombinable : Combinable (first :: others) (size + 1) := hsize ▸
        combinable_of_pointFault? htwo (by omega) (sizes_of_any_eq_false hdiffer) hpoint
      exact .inr ⟨size, hcombinable, combine_of_combinable hcombinable⟩

theorem combine_eq_ok_iff {shares : List Share} {secret : Bytes} :
    combine shares = .ok secret
      ↔ Combinable shares (secret.length + 1) ∧ secret = recover shares secret.length := by
  constructor
  · intro h
    obtain ⟨-, hcase⟩ | ⟨-, -, fault, hcase⟩ | ⟨size, hcombinable, hcase⟩ := combine_cases shares
    · rw [h] at hcase
      cases hcase
    · rw [h] at hcase
      cases hcase
    · obtain rfl : secret = recover shares size := Except.ok.inj (h.symm.trans hcase)
      rw [length_recover]
      exact ⟨hcombinable, rfl⟩
  · rintro ⟨hcombinable, hsecret⟩
    rw [combine_of_combinable hcombinable, ← hsecret]

theorem exists_combine_eq_ok_iff {shares : List Share} :
    (∃ secret, combine shares = .ok secret) ↔ ∃ size, Combinable shares size := by
  constructor
  · rintro ⟨secret, h⟩
    exact ⟨_, (combine_eq_ok_iff.mp h).1⟩
  · rintro ⟨size, h⟩
    obtain ⟨size, rfl⟩ : ∃ n, size = n + 1 := ⟨size - 1, by have := h.two_le_size; omega⟩
    exact ⟨_, combine_of_combinable h⟩

theorem combine_eq_insufficientShares_iff {shares : List Share} {count : Nat} :
    combine shares = .error (.insufficientShares count)
      ↔ shares.length < 2 ∧ count = shares.length := by
  obtain ⟨hfew, hcase⟩ | ⟨htwo, -, fault, hcase⟩ | ⟨size, h, hcase⟩ := combine_cases shares
  · simp [hcase, hfew, eq_comm]
  · simp only [hcase, Except.error.injEq, reduceCtorEq, false_iff]
    omega
  · have htwo := h.two_le_length
    simp only [hcase, reduceCtorEq, false_iff]
    omega

theorem exists_combine_eq_malformed_iff {shares : List Share} :
    (∃ fault, combine shares = .error (.malformed fault))
      ↔ 2 ≤ shares.length ∧ ∀ size, ¬ Combinable shares size := by
  obtain ⟨hfew, hcase⟩ | ⟨htwo, hnot, fault, hcase⟩ | ⟨size, h, hcase⟩ := combine_cases shares
  · simp [hcase, hfew]
  · simp [hcase, htwo, hnot]
  · simp only [hcase, reduceCtorEq, exists_false, false_iff, not_and, not_forall, not_not]
    exact fun _ ↦ ⟨_, h⟩

/-- Ends that only the words of a fault tell apart. -/
inductive SameKind : (end₁ end₂ : Except ThresholdError Bytes) → Prop where
  | ok (secret : Bytes) : SameKind (.ok secret) (.ok secret)
  | insufficientShares (count : Nat) :
    SameKind (.error (.insufficientShares count)) (.error (.insufficientShares count))
  | malformed (fault₁ fault₂ : ShareFault) :
    SameKind (.error (.malformed fault₁)) (.error (.malformed fault₂))

/-- In another order shares come to the same secret, or fail in the same way; the first fault met
may be another. -/
theorem combine_perm {shares other : List Share} (hperm : other.Perm shares) :
    SameKind (combine other) (combine shares) := by
  obtain ⟨hfew, hcase⟩ | ⟨htwo, hnot, fault, hcase⟩ | ⟨size, h, hcase⟩ := combine_cases shares
  · rw [hcase, combine_eq_insufficientShares_iff.mpr ⟨hperm.length_eq ▸ hfew, rfl⟩,
      hperm.length_eq]
    exact .insufficientShares _
  · obtain ⟨fault', hother⟩ := exists_combine_eq_malformed_iff.mpr
      ⟨hperm.length_eq ▸ htwo, fun size h ↦ hnot size (h.perm hperm.symm)⟩
    rw [hcase, hother]
    exact .malformed _ _
  · rw [hcase, combine_of_combinable (h.perm hperm), h.recover_perm hperm]
    exact .ok _

/-! ## No access or division goes astray -/

namespace Guarded

/-- The quotient of two elements, where the divisor is not zero. -/
def divide? (a b : Gf256) : Option Gf256 := if b = 0 then none else some (a * b.inv)

/-- The value at zero of the basis polynomial of the point at a position: a running product over
the points at all other positions. -/
def basis? (xs : List Gf256) (position : Nat) (own : Gf256) : Option Gf256 :=
  xs.zipIdx.foldlM (fun basis entry ↦
    if entry.2 = position then some basis else divide? (basis * entry.1) (entry.1 - own)) 1

/-- The value at zero of the polynomial through these points: a running sum. -/
def interpolate? (points : List (Gf256 × Gf256)) : Option Gf256 :=
  points.zipIdx.foldlM (fun sum entry ↦
    (basis? (points.map Prod.fst) entry.2 entry.1.1).map fun basis ↦ sum + entry.1.2 * basis) 0

/-- The bytes of shares in one position, where every share has one. -/
def column? (shares : List Share) (i : Nat) : Option Bytes :=
  shares.mapM fun share ↦ share.bytes[i]?

/-- The byte of the secret in one position. -/
def byte? (xs : Bytes) (shares : List Share) (i : Nat) : Option UInt8 := do
  let ys ← column? shares i
  let value ← interpolate? (List.zip (xs.map Gf256.mk) (ys.map Gf256.mk))
  return value.byte

/-- Puts shares together as `Shamir.combine` does, or gives nothing when a byte is read that is not
there or a divisor is zero. -/
def combine? (shares : List Share) : Option (Except ThresholdError Bytes) :=
  if shares.length < 2 then some (.error (.insufficientShares shares.length))
  else do
    let first ← shares[0]?
    if first.size < 2 then some (.error (.malformed (.tooShort first.size)))
    else if shares.any (fun share ↦ share.size ≠ first.size) then
      some (.error (.malformed .lengthsDiffer))
    else
      let xs ← column? shares (first.size - 1)
      match pointFault? [] xs with
      | some fault => some (.error (.malformed fault))
      | none => ((List.range (first.size - 1)).mapM (byte? xs shares)).map .ok

theorem mapM_eq_some_map {α β : Type} {f : α → Option β} {g : α → β} {items : List α}
    (h : ∀ a ∈ items, f a = some (g a)) : items.mapM f = some (items.map g) := by
  induction items with
  | nil => rfl
  | cons a items ih =>
    obtain ⟨ha, hitems⟩ := List.forall_mem_cons.mp h
    rw [List.mapM_cons, ha, Option.bind_eq_bind, Option.bind_some, ih hitems]
    rfl

theorem column?_eq {shares : List Share} {i : Nat} (h : ∀ share ∈ shares, i < share.size) :
    column? shares i = some (column shares i) := by
  refine mapM_eq_some_map fun share hshare ↦ ?_
  have hlt : i < share.bytes.length := h share hshare
  rw [List.getElem?_eq_getElem hlt, List.getD_eq_getElem _ _ hlt]

/-- Points that differ from the own one, none of them at its position, are multiplied up. -/
theorem foldlM_basis {xs : List Gf256} {own : Gf256} {position start : Nat}
    (hposition : position < start ∨ start + xs.length ≤ position) (hown : own ∉ xs)
    (basis : Gf256) :
    (xs.zipIdx start).foldlM (fun basis entry ↦
        if entry.2 = position then some basis else divide? (basis * entry.1) (entry.1 - own)) basis
      = some (basis * (xs.map fun x ↦ x / (x - own)).prod) := by
  induction xs generalizing start basis with
  | nil => rw [List.map_nil, List.prod_nil, mul_one]; rfl
  | cons x xs ih =>
    obtain ⟨hx, hxs⟩ := not_or.mp (mt List.mem_cons.mpr hown)
    have hdivide : divide? (basis * x) (x - own) = some (basis * x / (x - own)) := by
      rw [divide?, if_neg (sub_ne_zero.mpr (Ne.symm hx)), Gf256.inv_eq, div_eq_mul_inv]
    rw [List.length_cons] at hposition
    rw [List.zipIdx_cons, List.foldlM_cons, if_neg (by omega), hdivide, Option.bind_eq_bind,
      Option.bind_some, ih (by omega) hxs, List.map_cons, List.prod_cons, mul_div_assoc, mul_assoc]

theorem basis?_eq_weight {before after : List Gf256} {own : Gf256}
    (h : (before ++ own :: after).Nodup) :
    basis? (before ++ own :: after) before.length own = some (weight own (before ++ after)) := by
  have hnotMem := (List.nodup_cons.mp (List.nodup_middle.mp h)).1
  rw [List.mem_append, not_or] at hnotMem
  rw [basis?, List.zipIdx_append, List.foldlM_append, foldlM_basis (by omega) hnotMem.1,
    Option.bind_eq_bind, Option.bind_some, List.zipIdx_cons, List.foldlM_cons, if_pos (by omega),
    Option.bind_eq_bind, Option.bind_some, foldlM_basis (by omega) hnotMem.2, weight_eq_prod,
    one_mul, List.map_append, List.prod_append]

/-- The rest of the running sum, behind the points before. -/
theorem foldlM_interpolate {before after : List (Gf256 × Gf256)}
    (h : ((before ++ after).map Prod.fst).Nodup) (sum : Gf256) :
    (after.zipIdx before.length).foldlM (fun sum entry ↦
        (basis? ((before ++ after).map Prod.fst) entry.2 entry.1.1).map fun basis ↦
          sum + entry.1.2 * basis) sum
      = some (sum + (List.zipWith (fun w y ↦ y * w)
          (weightsAfter (before.map Prod.fst) (after.map Prod.fst)) (after.map Prod.snd)).sum) := by
  induction after generalizing before sum with
  | nil => rw [List.map_nil, weightsAfter, List.zipWith_nil_left, List.sum_nil, add_zero]; rfl
  | cons entry after ih =>
    have hshift : before ++ [entry] ++ after = before ++ entry :: after := by simp
    have hbasis : basis? ((before ++ entry :: after).map Prod.fst) before.length entry.1
        = some (weight entry.1 (before.map Prod.fst ++ after.map Prod.fst)) := by
      rw [List.map_append, List.map_cons] at h ⊢
      rw [← basis?_eq_weight h, List.length_map]
    have hfst : (before ++ [entry]).map Prod.fst = before.map Prod.fst ++ [entry.1] := by simp
    have hrest := @ih (before ++ [entry]) (hshift ▸ h)
    rw [hshift, List.length_append, List.length_singleton, hfst] at hrest
    rw [List.zipIdx_cons, List.foldlM_cons, hbasis, Option.map_some, Option.bind_eq_bind,
      Option.bind_some, hrest, List.map_cons, List.map_cons, weightsAfter, List.zipWith_cons_cons,
      List.sum_cons, add_assoc]

theorem interpolate?_eq {points : List (Gf256 × Gf256)} (h : (points.map Prod.fst).Nodup) :
    interpolate? points = some (List.zipWith (fun w y ↦ y * w) (weights (points.map Prod.fst))
      (points.map Prod.snd)).sum := by
  have hfold := @foldlM_interpolate [] points h 0
  rwa [zero_add] at hfold

theorem byte?_eq {shares : List Share} {i : Nat} (hsizes : ∀ share ∈ shares, i < share.size)
    (hnodup : (shares.map point).Nodup) :
    byte? (shares.map point) shares i
      = some (recoverByte (weights (shares.map fun share ↦ ⟨point share⟩)) (column shares i)) := by
  have hlength : ((shares.map point).map Gf256.mk).length = ((column shares i).map Gf256.mk).length
    := by simp [column]
  have hfst := List.map_fst_zip hlength.le
  have hdistinct : ((shares.map point).map Gf256.mk).Nodup :=
    hnodup.map fun a b h ↦ Gf256.mk.inj h
  have hinterpolate := @interpolate?_eq (List.zip ((shares.map point).map Gf256.mk)
    ((column shares i).map Gf256.mk)) (hfst.symm ▸ hdistinct)
  rw [hfst, List.map_snd_zip hlength.ge] at hinterpolate
  rw [byte?, column?_eq hsizes, Option.bind_eq_bind, Option.bind_some, hinterpolate, recoverByte,
    Gf256.sum_eq, List.zipWith_map_right, List.map_map]
  rfl

theorem column_last {shares : List Share} {size : Nat}
    (hsizes : ∀ share ∈ shares, share.size = size + 1) :
    column shares size = shares.map point := by
  refine List.map_congr_left fun share hshare ↦ ?_
  have hlength : share.bytes.length = size + 1 := hsizes share hshare
  rw [point, List.getLastD_eq_getLast?, List.getLast?_eq_getElem?, hlength, Nat.add_sub_cancel,
    List.getD_eq_getElem?_getD]

/-- **No access or division goes astray.** -/
theorem combine?_eq (shares : List Share) : combine? shares = some (combine shares) := by
  match shares with
  | [] => rfl
  | [_] => rfl
  | first :: second :: rest =>
    have htwo : 2 ≤ (first :: second :: rest).length := Nat.le_add_left 2 rest.length
    have herror := combineError?_cons first (List.cons_ne_nil second rest)
    generalize second :: rest = others at htwo herror
    have hany : (first :: others).any (fun share ↦ share.size ≠ first.size)
        = others.any (fun other ↦ other.size ≠ first.size) := by simp
    rw [combine?, if_neg (by omega), List.getElem?_cons_zero, Option.bind_eq_bind,
      Option.bind_some, hany]
    by_cases hshort : first.size < 2
    · rw [if_pos hshort, combine, herror, if_pos hshort]
    rw [if_neg hshort] at herror ⊢
    by_cases hdiffer : others.any (fun other ↦ other.size ≠ first.size) = true
    · rw [if_pos hdiffer, combine, herror, if_pos hdiffer]
    rw [if_neg hdiffer] at herror ⊢
    -- From here on the shares are of one size, so that every byte asked for is there.
    obtain ⟨size, hsize⟩ : ∃ size, first.size = size + 1 := ⟨first.size - 1, by omega⟩
    have hsizes : ∀ share ∈ first :: others, share.size = size + 1 := fun share hshare ↦
      (sizes_of_any_eq_false hdiffer share hshare).trans hsize
    rw [hsize, Nat.add_sub_cancel, column?_eq fun share hshare ↦ by rw [hsizes share hshare]; omega,
      column_last hsizes, Option.bind_eq_bind, Option.bind_some]
    cases hpoint : pointFault? [] ((first :: others).map point) with
    | some fault =>
      rw [combine, herror, hpoint]
      rfl
    | none =>
      have hcombinable : Combinable (first :: others) (size + 1) :=
        combinable_of_pointFault? htwo (by omega) hsizes hpoint
      rw [combine_of_combinable hcombinable, recover_eq_map, mapM_eq_some_map fun i hi ↦ byte?_eq
        (fun share hshare ↦ by rw [hsizes share hshare]; have := List.mem_range.mp hi; omega)
        hcombinable.nodup_points]
      rfl

end Guarded

/-! ## Any shares -/

/-- **Any shares.** Shares combine if and only if there are two of them or more, of one size, at
distinct points other than zero; too few are told by their count, and all others are malformed. No
byte is read that is not there, and nothing is divided by zero. A secret is a byte shorter than the
shares are, and in another order shares come to the same end. -/
theorem combine_any (shares : List Share) :
    ((∃ secret, combine shares = .ok secret) ↔ ∃ size, Combinable shares size) ∧
      (∀ count, combine shares = .error (.insufficientShares count)
        ↔ shares.length < 2 ∧ count = shares.length) ∧
      ((∃ fault, combine shares = .error (.malformed fault))
        ↔ 2 ≤ shares.length ∧ ∀ size, ¬ Combinable shares size) ∧
      Guarded.combine? shares = some (combine shares) ∧
      (∀ secret, combine shares = .ok secret → ∀ share ∈ shares, share.size = secret.length + 1) ∧
      ∀ other : List Share, other.Perm shares → SameKind (combine other) (combine shares) :=
  ⟨exists_combine_eq_ok_iff, fun _ ↦ combine_eq_insufficientShares_iff,
    exists_combine_eq_malformed_iff, Guarded.combine?_eq shares,
    fun _ h ↦ (combine_eq_ok_iff.mp h).1.sizes, fun _ hperm ↦ combine_perm hperm⟩

/-- Three shares that no splitting with threshold two has made, in two orders. -/
theorem combine_any_three :
    let shares : List Share := [⟨[7, 1, 9]⟩, ⟨[0, 4, 200]⟩, ⟨[255, 6, 3]⟩]
    let other : List Share := [⟨[255, 6, 3]⟩, ⟨[7, 1, 9]⟩, ⟨[0, 4, 200]⟩]
    other.Perm shares ∧ SameKind (combine other) (combine shares) ∧
      (∃ secret, combine shares = .ok secret) ∧
      ∀ secret, combine shares = .ok secret → secret.length = 2 := by
  intro shares other
  have hany := combine_any shares
  refine ⟨by decide, hany.2.2.2.2.2 other (by decide), hany.1.mpr ⟨3, ?_⟩, fun secret h ↦ ?_⟩
  · exact ⟨by decide, by decide, by decide, by decide, by decide⟩
  · have hsize : 3 = secret.length + 1 := hany.2.2.2.2.1 secret h ⟨[7, 1, 9]⟩ (by decide)
    omega

end DualSeal.Shamir

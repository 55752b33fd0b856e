import DualSeal.Proofs.Threshold.Field
import DualSeal.Threshold.Shamir
import Mathlib.LinearAlgebra.Lagrange

/-!
# Interpolation at zero

The lists of coefficients and weights that shares are made and put together with, read as
polynomials: a list of coefficients is evaluated by Horner's rule, and the weights of distinct
points are the values at zero of their Lagrange basis. So the weighted sum of any values is what
their interpolation polynomial takes at zero, and the values of a polynomial of small degree give
back its constant coefficient.
-/

open Polynomial

namespace DualSeal.Shamir

/-! ## Coefficients -/

/-- The polynomial with these coefficients, the constant one first. -/
noncomputable def toPolynomial (coefficients : List Gf256) : Gf256[X] :=
  coefficients.foldr (fun c f ↦ f * X + C c) 0

theorem toPolynomial_cons (c : Gf256) (coefficients : List Gf256) :
    toPolynomial (c :: coefficients) = toPolynomial coefficients * X + C c := rfl

theorem eval_toPolynomial (coefficients : List Gf256) (x : Gf256) :
    (toPolynomial coefficients).eval x = evaluate coefficients x := by
  induction coefficients with
  | nil => exact eval_zero
  | cons c coefficients ih =>
    rw [toPolynomial_cons, eval_add, eval_mul, eval_X, eval_C, ih]
    rfl

theorem degree_toPolynomial_lt (coefficients : List Gf256) :
    (toPolynomial coefficients).degree < coefficients.length := by
  rw [degree_lt_iff_coeff_zero]
  intro m hm
  induction coefficients generalizing m with
  | nil => exact coeff_zero m
  | cons c coefficients ih =>
    obtain ⟨k, rfl⟩ : ∃ k, m = k + 1 := ⟨m - 1, by simp only [List.length_cons] at hm; omega⟩
    rw [toPolynomial_cons, coeff_add, coeff_mul_X, coeff_C_succ, add_zero]
    exact ih k (by simpa using hm)

theorem evaluate_zero (c : Gf256) (coefficients : List Gf256) :
    evaluate (c :: coefficients) 0 = c := by
  change evaluate coefficients 0 * 0 + c = c
  rw [mul_zero, zero_add]

theorem toPolynomial_inj {f g : List Gf256} (hlength : f.length = g.length) :
    toPolynomial f = toPolynomial g ↔ f = g := by
  refine ⟨fun h ↦ ?_, congrArg toPolynomial⟩
  induction f generalizing g with
  | nil => exact (List.length_eq_zero_iff.mp hlength.symm).symm
  | cons c f ih =>
    obtain ⟨d, g, rfl⟩ := List.exists_cons_of_length_eq_add_one hlength.symm
    obtain rfl : c = d := by
      have hzero := congrArg (eval 0) h
      rwa [eval_toPolynomial, eval_toPolynomial, evaluate_zero, evaluate_zero] at hzero
    rw [toPolynomial_cons, toPolynomial_cons, add_left_inj] at h
    rw [ih (Nat.succ.inj hlength) (mul_right_cancel₀ X_ne_zero h)]

/-- As many coefficients as there are points are known from the values there. -/
theorem eq_of_evaluate_eq {f g : List Gf256} (hlength : f.length = g.length) {xs : Finset Gf256}
    (hcard : f.length ≤ xs.card) (h : ∀ x ∈ xs, evaluate f x = evaluate g x) : f = g := by
  rw [← toPolynomial_inj hlength]
  refine eq_of_degrees_lt_of_eval_finset_eq xs ?_ ?_ ?_
  · exact (degree_toPolynomial_lt f).trans_le (by exact_mod_cast hcard)
  · exact (degree_toPolynomial_lt g).trans_le (by exact_mod_cast hlength ▸ hcard)
  · intro x hx
    rw [eval_toPolynomial, eval_toPolynomial, h x hx]

/-! ## Weights -/

/-- A weight as a product of quotients, one for every other point. -/
theorem weight_eq_prod (own : Gf256) (others : List Gf256) :
    weight own others = (others.map fun x ↦ x / (x - own)).prod := by
  rw [weight, Gf256.product_eq, Gf256.product_eq, Gf256.inv_eq]
  induction others with
  | nil => simp
  | cons x others ih =>
    rw [List.map_cons, List.map_cons, List.prod_cons, List.prod_cons, List.prod_cons, ← ih,
      Gf256.sub_eq_add, mul_inv, div_eq_mul_inv, mul_mul_mul_comm]

theorem eval_zero_basis (points : Finset Gf256) (own : Gf256) :
    (Lagrange.basis points id own).eval 0 = ∏ x ∈ points.erase own, x / (x - own) := by
  rw [Lagrange.basis, eval_prod]
  refine Finset.prod_congr rfl fun x _ ↦ ?_
  rw [Lagrange.basisDivisor, eval_mul, eval_C, eval_sub, eval_X, eval_C, id, id, ← neg_sub x own]
  simp only [Gf256.neg_eq, zero_sub]
  rw [mul_comm, ← div_eq_mul_inv]

theorem weight_eq_eval_basis {before after : List Gf256} {x : Gf256}
    (h : (before ++ x :: after).Nodup) :
    weight x (before ++ after)
      = (Lagrange.basis (before ++ x :: after).toFinset id x).eval 0 := by
  -- `weight` is given the other points in two parts; as a set they are all points but `x`.
  have hothers : (x :: (before ++ after)).Nodup := List.nodup_middle.mp h
  have hset : (before ++ x :: after).toFinset = insert x (before ++ after).toFinset := by
    rw [← List.toFinset_cons]
    exact List.toFinset_eq_of_perm _ _ List.perm_middle
  have hnotMem : x ∉ (before ++ after).toFinset := by
    rw [List.mem_toFinset]
    exact (List.nodup_cons.mp hothers).1
  rw [eval_zero_basis, hset, Finset.erase_insert hnotMem, weight_eq_prod,
    List.prod_toFinset _ (List.nodup_cons.mp hothers).2]

theorem weightsAfter_eq_map {before after : List Gf256} (h : (before ++ after).Nodup) :
    weightsAfter before after
      = after.map fun x ↦ (Lagrange.basis (before ++ after).toFinset id x).eval 0 := by
  induction after generalizing before with
  | nil => rfl
  | cons x after ih =>
    -- The point moves to the list of those before, which leaves the set of all points as it was.
    have hshift : before ++ [x] ++ after = before ++ x :: after := by simp
    rw [weightsAfter, List.map_cons, weight_eq_eval_basis h, ih (hshift ▸ h), hshift]

/-- The weights of distinct points are their Lagrange basis at zero. -/
theorem weights_eq_map {xs : List Gf256} (h : xs.Nodup) :
    weights xs = xs.map fun x ↦ (Lagrange.basis xs.toFinset id x).eval 0 :=
  @weightsAfter_eq_map [] xs h

/-! ## Interpolation -/

/-- The weighted sum of values at distinct points is their interpolation polynomial at zero. -/
theorem weighted_sum_eq_interpolate {xs : List Gf256} (h : xs.Nodup) (values : Gf256 → Gf256) :
    (List.zipWith (fun w y ↦ y * w) (weights xs) (xs.map values)).sum
      = (Lagrange.interpolate xs.toFinset id values).eval 0 := by
  rw [weights_eq_map h, List.zipWith_map, List.zipWith_self, Lagrange.interpolate_apply,
    eval_finsetSum, ← List.sum_toFinset _ h]
  exact Finset.sum_congr rfl fun x _ ↦ by rw [eval_mul, eval_C]

/-- **Interpolation at zero.** The values of a polynomial of degree below the number of points
give its constant coefficient. -/
theorem weighted_sum_evaluate {xs coefficients : List Gf256} (h : xs.Nodup)
    (hlength : coefficients.length ≤ xs.length) :
    (List.zipWith (fun w y ↦ y * w) (weights xs) (xs.map (evaluate coefficients))).sum
      = evaluate coefficients 0 := by
  have hdegree : (toPolynomial coefficients).degree < xs.toFinset.card := by
    rw [List.toFinset_card_of_nodup h]
    exact (degree_toPolynomial_lt coefficients).trans_le (by exact_mod_cast hlength)
  rw [weighted_sum_eq_interpolate h, ← eval_toPolynomial,
    Lagrange.eq_interpolate (Set.injOn_id _) hdegree]
  simp only [id, eval_toPolynomial]

end DualSeal.Shamir

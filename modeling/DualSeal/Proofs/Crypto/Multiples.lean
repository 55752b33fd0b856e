import DualSeal.Proofs.Crypto.Roots
import Mathlib.AlgebraicGeometry.EllipticCurve.Affine.Point

/-!
# Multiples of a point

The points of the curve, with the one at infinity, are a group, and the library computes its
multiples. In Jacobian coordinates a point has many spellings; what a spelling stands for is the
relation `Represents`. Doubling and adding take spellings to spellings of the double and of the sum
(`Represents.double`, `Represents.add`), in every case that can come up: a point at infinity, the
same point twice, a point and its negative.
-/

namespace DualSeal.P256

/-! ## The group -/

/-- The curve over the field. -/
def curve : WeierstrassCurve.Affine (ZMod p) := ⟨0, 0, 0, -3, b⟩

theorem cast_eq_zero {x : Nat} (hx : x < p) : (x : ZMod p) = 0 ↔ x = 0 := by
  rw [← Nat.cast_zero, cast_inj hx prime_p.pos]

theorem cast_sub {x y : Nat} (hy : y < p) : ((sub x y : Nat) : ZMod p) = x - y := by
  rw [sub, ZMod.natCast_mod, Nat.cast_sub (by omega), Nat.cast_add, ZMod.natCast_self, add_zero]

/-- Reduced coordinates solve the equation exactly when they do so over the field. -/
theorem onCurve_iff {x y : Nat} (hx : x < p) (hy : y < p) :
    OnCurve x y ↔ (y : ZMod p) ^ 2 = (x : ZMod p) ^ 3 - 3 * x + b := by
  have hcubic : cubic x % p = cubic x := Nat.mod_mod _ _
  rw [OnCurve, ← cast_cubic, sq, ← Nat.cast_mul, ZMod.natCast_eq_natCast_iff', hcubic]
  exact ⟨fun h ↦ h.2.2, fun h ↦ ⟨hx, hy, h⟩⟩

theorem nonsingular_iff {x y : ZMod p} : curve.Nonsingular x y ↔ y ^ 2 = x ^ 3 - 3 * x + b := by
  have hΔ : curve.Δ ≠ 0 := by decide +kernel
  rw [← WeierstrassCurve.Affine.equation_iff_nonsingular_of_Δ_ne_zero hΔ,
    WeierstrassCurve.Affine.equation_iff, curve]
  simp only [zero_mul, add_zero, neg_mul, sub_eq_add_neg]

theorem Point.nonsingular (point : Point) : curve.Nonsingular point.x point.y :=
  nonsingular_iff.mpr ((onCurve_iff point.onCurve.1 point.onCurve.2.1).mp point.onCurve)

/-- The element of the group. -/
def Point.element (point : Point) : curve.Point := .some point.x point.y point.nonsingular

theorem Point.element_ne_zero (point : Point) : point.element ≠ 0 :=
  WeierstrassCurve.Affine.Point.some_ne_zero _

theorem Point.element_inj {point other : Point} :
    point.element = other.element ↔ point = other := by
  refine ⟨fun h ↦ ?_, congrArg _⟩
  obtain ⟨x, y, hpoint⟩ := point
  obtain ⟨x', y', hother⟩ := other
  obtain ⟨hx, hy⟩ := WeierstrassCurve.Affine.Point.some.inj h
  obtain rfl := (cast_inj hpoint.1 hother.1).mp hx
  obtain rfl := (cast_inj hpoint.2.1 hother.2.1).mp hy
  rfl

/-- The element of the group, the one at infinity if there is no other. -/
def Point.element? : Option Point → curve.Point
  | none => 0
  | some point => point.element

theorem Point.element?_injective : Function.Injective element? := by
  intro q r h
  cases q with
  | none =>
    cases r with
    | none => rfl
    | some r => exact absurd h.symm r.element_ne_zero
  | some q =>
    cases r with
    | none => exact absurd h q.element_ne_zero
    | some r => rw [element_inj.mp h]

/-! ## Jacobian coordinates -/

theorem mod_lt (x : Nat) : x % p < p := Nat.mod_lt _ prime_p.pos

theorem sub_lt (x y : Nat) : sub x y < p := mod_lt _

namespace Jacobian

/-- The affine coordinates are these, in multiples of the square and the cube of `z`. -/
def IsAt (q : Jacobian) (x y : ZMod p) : Prop :=
  (q.z : ZMod p) ≠ 0 ∧ (q.x : ZMod p) = x * q.z ^ 2 ∧ (q.y : ZMod p) = y * q.z ^ 3

/-- Reduced coordinates that spell this element of the group. -/
structure Represents (q : Jacobian) (P : curve.Point) : Prop where
  x_lt : q.x < p
  y_lt : q.y < p
  z_lt : q.z < p
  spells : match P with
    | .zero => q.z = 0
    | .some x y _ => q.IsAt x y

theorem represents_infinity : Represents infinity 0 :=
  ⟨one_lt_p, one_lt_p, prime_p.pos, rfl⟩

theorem represents_point (point : Point) : Represents ⟨point.x, point.y, 1⟩ point.element := by
  refine ⟨point.onCurve.1, point.onCurve.2.1, one_lt_p, ?_⟩
  simp [IsAt, Point.element]

/-! ### Doubling -/

theorem double_x (q : Jacobian) : (q.double.x : ZMod p)
    = (3 * (q.x - q.z ^ 2) * (q.x + q.z ^ 2)) ^ 2 - 8 * q.x * q.y ^ 2 := by
  simp only [double, cast_sub (mod_lt _), ZMod.natCast_mod, Nat.cast_mul, Nat.cast_add]
  push_cast
  ring

theorem double_y (q : Jacobian) : (q.double.y : ZMod p)
    = 3 * (q.x - q.z ^ 2) * (q.x + q.z ^ 2) * (4 * q.x * q.y ^ 2 - q.double.x) - 8 * q.y ^ 4 := by
  simp only [double, cast_sub (mod_lt _), cast_sub (sub_lt _ _), ZMod.natCast_mod, Nat.cast_mul,
    Nat.cast_add]
  push_cast
  ring

theorem double_z (q : Jacobian) : (q.double.z : ZMod p) = 2 * q.y * q.z := by
  simp only [double, cast_sub (mod_lt _), ZMod.natCast_mod, Nat.cast_mul, Nat.cast_add]
  ring

theorem two_ne_zero : (2 : ZMod p) ≠ 0 := by decide

theorem IsAt.double {q : Jacobian} {x y s : ZMod p} (h : q.IsAt x y) (hy : y ≠ 0)
    (hs : s * (2 * y) = 3 * x ^ 2 - 3) :
    q.double.IsAt (s ^ 2 - 2 * x) (s * (x - (s ^ 2 - 2 * x)) - y) := by
  obtain ⟨hz, hX, hY⟩ := h
  -- The program's slope has another denominator.
  have hslope : 3 * (q.x - q.z ^ 2) * (q.x + q.z ^ 2) = s * q.double.z := by
    rw [double_z, hX, hY]
    linear_combination -(q.z : ZMod p) ^ 4 * hs
  have hdouble : (q.double.x : ZMod p) = (s ^ 2 - 2 * x) * q.double.z ^ 2 := by
    rw [double_x, hslope, double_z, hX, hY]
    ring
  refine ⟨?_, hdouble, ?_⟩
  · rw [double_z, hY]
    exact mul_ne_zero (mul_ne_zero two_ne_zero (mul_ne_zero hy (pow_ne_zero 3 hz))) hz
  · rw [double_y, hslope, hdouble, double_z, hX, hY]
    ring

theorem curve_negY (x y : ZMod p) : curve.negY x y = -y := by
  simp [WeierstrassCurve.Affine.negY, curve]

theorem curve_addX (x x' s : ZMod p) : curve.addX x x' s = s ^ 2 - x - x' := by
  simp [WeierstrassCurve.Affine.addX, curve]

theorem curve_addY (x x' y s : ZMod p) :
    curve.addY x x' y s = s * (x - (s ^ 2 - x - x')) - y := by
  rw [WeierstrassCurve.Affine.addY, WeierstrassCurve.Affine.negAddY, curve_negY, curve_addX]
  ring

/-- **Doubling.** -/
theorem Represents.double {q : Jacobian} {P : curve.Point} (h : Represents q P) :
    Represents q.double (P + P) := by
  refine ⟨sub_lt _ _, sub_lt _ _, sub_lt _ _, ?_⟩
  obtain ⟨-, -, -, hspells⟩ := h
  have hzero : (q.double.z : ZMod p) = 0 → q.double.z = 0 := (cast_eq_zero (sub_lt _ _)).mp
  cases P with
  | zero =>
    have hz : q.z = 0 := hspells
    exact hzero (by rw [double_z, hz, Nat.cast_zero, mul_zero])
  | some x y hxy =>
    have hneg := curve_negY x y
    by_cases hy : y = 0
    · -- The point is its own negative.
      rw [WeierstrassCurve.Affine.Point.add_self_of_Y_eq (by rw [hneg, hy, neg_zero])]
      exact hzero (by rw [double_z, hspells.2.2, hy]; ring)
    · have htwo : y - curve.negY x y = 2 * y := by rw [hneg]; ring
      have hy2 : (2 * y : ZMod p) ≠ 0 := mul_ne_zero two_ne_zero hy
      have hne : y ≠ curve.negY x y := by rwa [← sub_ne_zero, htwo]
      have hslope : curve.slope x x y y * (2 * y) = 3 * x ^ 2 - 3 := by
        rw [WeierstrassCurve.Affine.slope_of_Y_ne rfl hne, htwo, div_mul_cancel₀ _ hy2]
        simp only [curve]
        ring
      rw [WeierstrassCurve.Affine.Point.add_self_of_Y_ne hne]
      change q.double.IsAt _ _
      rw [curve_addX, curve_addY, sub_sub, ← two_mul]
      exact hspells.double hy hslope

/-! ### Adding -/

/-- How far the point's abscissa is from that of the coordinates, times the square of `z`. -/
def run (q : Jacobian) (point : Point) : Nat := sub (point.x * (q.z * q.z % p) % p) q.x

/-- How far the point's ordinate is from that of the coordinates, times the cube of `z`. -/
def rise (q : Jacobian) (point : Point) : Nat :=
  sub (point.y * (q.z * q.z % p) % p * q.z % p) q.y

theorem run_lt (q : Jacobian) (point : Point) : q.run point < p := sub_lt _ _

theorem rise_lt (q : Jacobian) (point : Point) : q.rise point < p := sub_lt _ _

section Adding

variable {q : Jacobian} {point : Point} {x y : ZMod p}

theorem IsAt.run (h : q.IsAt x y) (hx : q.x < p) (point : Point) :
    (q.run point : ZMod p) = (point.x - x) * q.z ^ 2 := by
  simp only [Jacobian.run, cast_sub hx, ZMod.natCast_mod, Nat.cast_mul, h.2.1]
  ring

theorem IsAt.rise (h : q.IsAt x y) (hy : q.y < p) (point : Point) :
    (q.rise point : ZMod p) = (point.y - y) * q.z ^ 3 := by
  simp only [Jacobian.rise, cast_sub hy, ZMod.natCast_mod, Nat.cast_mul, h.2.2]
  ring

theorem IsAt.run_eq_zero_iff (h : q.IsAt x y) (hx : q.x < p) :
    q.run point = 0 ↔ x = point.x := by
  rw [← cast_eq_zero (run_lt _ _), h.run hx point, mul_eq_zero_iff_right (pow_ne_zero 2 h.1),
    sub_eq_zero, eq_comm]

theorem IsAt.rise_eq_zero_iff (h : q.IsAt x y) (hy : q.y < p) :
    q.rise point = 0 ↔ y = point.y := by
  rw [← cast_eq_zero (rise_lt _ _), h.rise hy point, mul_eq_zero_iff_right (pow_ne_zero 3 h.1),
    sub_eq_zero, eq_comm]

theorem add_of_z_eq_zero (hz : q.z = 0) : q.add point = ⟨point.x, point.y, 1⟩ := if_pos hz

theorem add_of_run_eq_zero (hz : q.z ≠ 0) (hrun : q.run point = 0) :
    q.add point = if q.rise point = 0 then q.double else infinity :=
  (if_neg hz).trans (if_pos hrun)

theorem add_of_run_ne_zero (hz : q.z ≠ 0) (hrun : q.run point ≠ 0) :
    (q.add point).x < p ∧ (q.add point).y < p ∧ (q.add point).z < p ∧
      ((q.add point).z : ZMod p) = q.z * q.run point ∧
      ((q.add point).x : ZMod p)
        = q.rise point ^ 2 - q.run point ^ 3 - 2 * (q.x * q.run point ^ 2) ∧
      ((q.add point).y : ZMod p) = q.rise point * (q.x * q.run point ^ 2 - (q.add point).x)
        - q.y * q.run point ^ 3 := by
  have hadd : q.add point = _ := (if_neg hz).trans (if_neg hrun)
  refine ⟨hadd ▸ sub_lt _ _, hadd ▸ sub_lt _ _, hadd ▸ mod_lt _, ?_, ?_, ?_⟩
  · rw [hadd, ZMod.natCast_mod, Nat.cast_mul]
    rfl
  · rw [hadd]
    dsimp only
    rw [← run, ← rise]
    simp only [cast_sub (mod_lt _), ZMod.natCast_mod, Nat.cast_mul]
    push_cast
    ring
  · rw [hadd]
    dsimp only
    rw [← run, ← rise]
    simp only [cast_sub (mod_lt _), cast_sub (sub_lt _ _), ZMod.natCast_mod, Nat.cast_mul]
    push_cast
    ring

theorem IsAt.add {s : ZMod p} (h : q.IsAt x y) (hx : q.x < p) (hy : q.y < p) (hz : q.z ≠ 0)
    (hne : x ≠ point.x) (hs : s * (x - point.x) = y - point.y) :
    (q.add point).IsAt (s ^ 2 - x - point.x) (s * (x - (s ^ 2 - x - point.x)) - y) := by
  have hrun := h.run hx point
  have hrise := h.rise hy point
  have hrun0 : (q.run point : ZMod p) ≠ 0 := by
    rwa [ne_eq, cast_eq_zero (run_lt _ _), h.run_eq_zero_iff hx]
  obtain ⟨-, -, -, haddz, haddx, haddy⟩ := add_of_run_ne_zero hz fun h0 ↦
    hrun0 ((cast_eq_zero (run_lt _ _)).mpr h0)
  obtain ⟨hz, hX, hY⟩ := h
  -- The program's slope has another denominator.
  have hslope : (q.rise point : ZMod p) = s * (q.add point).z := by
    rw [haddz, hrun, hrise]
    linear_combination (q.z : ZMod p) ^ 3 * hs
  have hadd : ((q.add point).x : ZMod p) = (s ^ 2 - x - point.x) * (q.add point).z ^ 2 := by
    rw [haddx, hslope, haddz, hX]
    linear_combination (-(q.run point : ZMod p) ^ 2) * hrun
  refine ⟨?_, hadd, ?_⟩
  · rw [haddz]
    exact mul_ne_zero hz hrun0
  · rw [haddy, hslope, hadd, haddz, hX, hY]
    ring

/-- **Adding.** -/
theorem Represents.add {P : curve.Point} (h : Represents q P) :
    Represents (q.add point) (P + point.element) := by
  obtain ⟨hx, hy, hz, hspells⟩ := h
  cases P with
  | zero =>
    rw [add_of_z_eq_zero hspells]
    exact (zero_add point.element).symm ▸ represents_point point
  | some x y hxy =>
    have hz0 : q.z ≠ 0 := fun hz0 ↦ hspells.1 ((cast_eq_zero hz).mpr hz0)
    have hat : q.IsAt x y := hspells
    by_cases hrun : q.run point = 0
    · obtain rfl := (hat.run_eq_zero_iff hx).mp hrun
      rw [add_of_run_eq_zero hz0 hrun]
      by_cases hrise : q.rise point = 0
      · obtain rfl := (hat.rise_eq_zero_iff hy).mp hrise
        rw [if_pos hrise]
        exact Represents.double ⟨hx, hy, hz, hspells⟩
      · -- Two ordinates over one abscissa are each other's negatives.
        have hsquare : y ^ 2 = (point.y : ZMod p) ^ 2 :=
          (nonsingular_iff.mp hxy).trans (nonsingular_iff.mp point.nonsingular).symm
        have hneg : y = curve.negY point.x point.y := by
          rw [curve_negY]
          exact (sq_eq_sq_iff_eq_or_eq_neg.mp hsquare).resolve_left fun heq ↦
            hrise ((hat.rise_eq_zero_iff hy).mpr heq)
        rw [if_neg hrise, Point.element, WeierstrassCurve.Affine.Point.add_of_Y_eq rfl hneg]
        exact represents_infinity
    · obtain ⟨haddx, haddy, haddz, -, -, -⟩ := add_of_run_ne_zero hz0 hrun
      refine ⟨haddx, haddy, haddz, ?_⟩
      have hne : x ≠ point.x := fun heq ↦ hrun ((hat.run_eq_zero_iff hx).mpr heq)
      have hslope : curve.slope x point.x y point.y * (x - point.x) = y - point.y := by
        rw [WeierstrassCurve.Affine.slope_of_X_ne hne, div_mul_cancel₀ _ (sub_ne_zero.mpr hne)]
      rw [Point.element, WeierstrassCurve.Affine.Point.add_of_X_ne hne]
      change (q.add point).IsAt _ _
      rw [curve_addX, curve_addY]
      exact hat.add hx hy hz0 hne hslope

end Adding

/-! ### Back to a point -/

theorem cast_inv {x : Nat} (hx : (x : ZMod p) ≠ 0) : ((inv x : Nat) : ZMod p) = (x : ZMod p)⁻¹ := by
  have hexponent : p - 2 < 2 ^ 256 := by decide
  have hone : p - 2 + 1 = p - 1 := by decide
  refine eq_inv_of_mul_eq_one_left ?_
  rw [inv, pow_eq _ hexponent, ZMod.natCast_mod, Nat.cast_pow, ← pow_succ, hone,
    ZMod.pow_card_sub_one_eq_one hx]

theorem Represents.affine? {P : curve.Point} (h : Represents q P) :
    Point.element? q.affine? = P := by
  obtain ⟨-, -, -, hspells⟩ := h
  cases P with
  | zero =>
    rw [Jacobian.affine?, if_pos hspells]
    rfl
  | some x y hxy =>
    obtain ⟨hz, hX, hY⟩ := hspells
    have hz0 : q.z ≠ 0 := fun hz0 ↦ hz (by rw [hz0, Nat.cast_zero])
    have hinv := cast_inv hz
    have hx : ((q.x * (inv q.z * inv q.z % p) % p : Nat) : ZMod p) = x := by
      simp only [ZMod.natCast_mod, Nat.cast_mul, hinv, hX]
      field_simp
    have hy : ((q.y * (inv q.z * inv q.z % p) % p * inv q.z % p : Nat) : ZMod p) = y := by
      simp only [ZMod.natCast_mod, Nat.cast_mul, hinv, hY]
      field_simp
    have hon : OnCurve (q.x * (inv q.z * inv q.z % p) % p)
        (q.y * (inv q.z * inv q.z % p) % p * inv q.z % p) := by
      rw [onCurve_iff (mod_lt _) (mod_lt _), hx, hy]
      exact nonsingular_iff.mp hxy
    rw [Jacobian.affine?, if_neg hz0]
    dsimp only
    rw [Point.mk?, dif_pos hon, Point.element?, Point.element]
    simp only [hx, hy]

end Jacobian

/-! ## Multiples -/

/-- What the sum is when all digits but the last `bits` have been read. -/
theorem Jacobian.Represents.mulBits {sum : Jacobian} {P : curve.Point} (h : Represents sum P)
    (point : Point) (k bits : Nat) :
    Represents (mulBits point k bits sum) (2 ^ bits • P + (k % 2 ^ bits) • point.element) := by
  induction bits generalizing sum P with
  | zero =>
    rw [Nat.pow_zero, Nat.mod_one, one_nsmul, zero_nsmul, add_zero]
    exact h
  | succ bits ih =>
    have htwice : 2 ^ (bits + 1) • P = 2 ^ bits • (P + P) := by
      rw [Nat.pow_succ, mul_nsmul', two_nsmul]
    rw [P256.mulBits, mod_two_pow_succ, htwice]
    cases k.testBit bits with
    | false =>
      rw [if_neg Bool.false_ne_true, if_neg Bool.false_ne_true, Nat.add_zero]
      exact ih h.double
    | true =>
      rw [if_pos rfl, if_pos rfl, Nat.add_comm, add_nsmul, ← add_assoc, ← nsmul_add]
      exact ih h.double.add

/-- **The library computes multiples.** -/
theorem element?_mul? (point : Point) {k : Nat} (hk : k < 2 ^ 256) :
    Point.element? (mul? k point) = k • point.element := by
  have h := (Jacobian.represents_infinity.mulBits point k 256).affine?
  rwa [nsmul_zero, zero_add, Nat.mod_eq_of_lt hk] at h

end DualSeal.P256

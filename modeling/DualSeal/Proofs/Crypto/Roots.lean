import DualSeal.Proofs.Crypto.Prime
import Mathlib.FieldTheory.Finite.Basic
import Mathlib.Tactic.LinearCombination

/-!
# Roots

A square modulo `p` has a square root that the library finds, and every other root is its negative.
So over any abscissa there are no two points besides a point and its negative; and these two differ,
in the parity of their ordinates even, because no ordinate is zero: the cubic has no root
(`cubic_ne_zero`). Its roots would be roots of the remainder of `X ^ p - X`, too, which is computed
over `1`, `x` and `x²`, and has no factor in common with it.
-/

namespace DualSeal.P256

instance : Fact p.Prime := ⟨prime_p⟩

theorem one_lt_p : 1 < p := prime_p.one_lt

theorem cast_inj {x y : Nat} (hx : x < p) (hy : y < p) : (x : ZMod p) = y ↔ x = y := by
  rw [ZMod.natCast_eq_natCast_iff', Nat.mod_eq_of_lt hx, Nat.mod_eq_of_lt hy]

/-! ## Square roots -/

theorem quarter_lt : (p + 1) / 4 < 2 ^ 256 := by decide

theorem powBits_eq (x exponent bits product : Nat) :
    powBits x exponent bits product = powWith (fun a b ↦ a * b % p) x exponent bits product := by
  induction bits generalizing product with
  | zero => rfl
  | succ bits ih => exact ih _

theorem pow_eq {exponent : Nat} (x : Nat) (h : exponent < 2 ^ 256) :
    pow x exponent = x ^ exponent % p := by
  rw [← powMod_eq x one_lt_p h]
  exact powBits_eq x exponent 256 1

theorem sqrt?_eq_some {square y : Nat} (h : sqrt? square = some y) :
    y < p ∧ y * y % p = square % p := by
  rw [sqrt?] at h
  split at h
  · rename_i hroot
    obtain rfl := Option.some.inj h
    refine ⟨?_, hroot⟩
    rw [pow_eq _ quarter_lt]
    exact Nat.mod_lt _ prime_p.pos
  · cases h

/-- A square has a root that is found: its own power, by Fermat. -/
theorem exists_sqrt?_eq_some {square y : Nat} (h : y * y % p = square % p) :
    ∃ root, sqrt? square = some root := by
  have hsquare : (square : ZMod p) = y ^ 2 := by
    rw [sq, ← Nat.cast_mul, ZMod.natCast_eq_natCast_iff', h]
  have hexponent : 2 * ((p + 1) / 4) + 2 * ((p + 1) / 4) = p + 1 := by decide
  have hroot : pow square ((p + 1) / 4) * pow square ((p + 1) / 4) % p = square % p := by
    rw [pow_eq _ quarter_lt, ← ZMod.natCast_eq_natCast_iff', Nat.cast_mul, ZMod.natCast_mod,
      Nat.cast_pow, hsquare, ← pow_mul, ← pow_add, hexponent, pow_succ, ZMod.pow_card, sq]
  exact ⟨_, by rw [sqrt?, if_pos hroot]⟩

/-! ## Negatives -/

theorem sub_zero_of_pos {y : Nat} (h : 0 < y) : sub 0 y = p - y := by
  rw [sub, Nat.zero_add, Nat.mod_eq_of_lt (Nat.sub_lt prime_p.pos h)]

theorem eq_or_eq_sub {x y : Nat} (hx : x < p) (hy : y < p) (hpos : 0 < x)
    (h : x * x % p = y * y % p) : y = x ∨ y = p - x := by
  have hcast : (y : ZMod p) * y = x * x := by
    rw [← Nat.cast_mul, ← Nat.cast_mul, ZMod.natCast_eq_natCast_iff', h]
  rcases mul_self_eq_mul_self_iff.mp hcast with heq | hneg
  · exact .inl ((cast_inj hy hx).mp heq)
  · refine .inr ((cast_inj hy (Nat.sub_lt prime_p.pos hpos)).mp ?_)
    rw [hneg, Nat.cast_sub hx.le, ZMod.natCast_self, zero_sub]

/-! ## The cubic has no root -/

/-- The element `c₀ + c₁ x + c₂ x²`, for a root `x` of the cubic. -/
structure OverRoot where
  c₀ : Nat
  c₁ : Nat
  c₂ : Nat

namespace OverRoot

/-- The product, where `x³` is `3 x - b`. -/
def mul (q r : OverRoot) : OverRoot :=
  let d₃ := q.c₁ * r.c₂ + q.c₂ * r.c₁
  let d₄ := q.c₂ * r.c₂
  ⟨(q.c₀ * r.c₀ + d₃ * (p - b)) % p,
    (q.c₀ * r.c₁ + q.c₁ * r.c₀ + 3 * d₃ + d₄ * (p - b)) % p,
    (q.c₀ * r.c₂ + q.c₁ * r.c₁ + q.c₂ * r.c₀ + 3 * d₄) % p⟩

/-- The element's value, at `x`. -/
def value (x : ZMod p) (q : OverRoot) : ZMod p := q.c₀ + q.c₁ * x + q.c₂ * x ^ 2

theorem value_mul {x : ZMod p} (hx : x ^ 3 - 3 * x + b = 0) (q r : OverRoot) :
    value x (q.mul r) = value x q * value x r := by
  have hb : ((p - b : Nat) : ZMod p) = -b := by
    rw [Nat.cast_sub (by decide), ZMod.natCast_self, zero_sub]
  simp only [value, mul, ZMod.natCast_mod, Nat.cast_add, Nat.cast_mul, Nat.cast_ofNat, hb]
  linear_combination
    -(q.c₁ * r.c₂ + q.c₂ * r.c₁ + q.c₂ * r.c₂ * x : ZMod p) * hx

/-- The power of `x` to `p`. -/
def frobenius : OverRoot := powWith mul ⟨0, 1, 0⟩ p 256 ⟨1, 0, 0⟩

theorem value_frobenius {x : ZMod p} (hx : x ^ 3 - 3 * x + b = 0) : value x frobenius = x := by
  rw [frobenius, map_powWith (value_mul hx), Nat.mod_eq_of_lt (by decide)]
  simp [value, ZMod.pow_card]

end OverRoot

/-- What is left of `a₀ + a₁ x + a₂ x²` and the cubic when `x` is eliminated. -/
def resultant (a₀ a₁ a₂ : Int) : Int :=
  let l₀ := a₁ * a₀ + a₂ * a₂ * b
  let l₁ := a₁ * a₁ - a₀ * a₂ - 3 * a₂ * a₂
  3 * l₀ * l₁ * l₁ + b * l₁ * l₁ * l₁ - l₀ * l₀ * l₀

theorem resultant_eq_zero {x : ZMod p} {a₀ a₁ a₂ : Int} (hx : x ^ 3 - 3 * x + b = 0)
    (h : a₀ + a₁ * x + a₂ * x ^ 2 = 0) : (resultant a₀ a₁ a₂ : ZMod p) = 0 := by
  -- First to a linear equation for `x`, then to one without it.
  have hlinear : (a₁ * a₁ - a₀ * a₂ - 3 * a₂ * a₂ : ZMod p) * x + (a₁ * a₀ + a₂ * a₂ * b) = 0 := by
    linear_combination (a₂ ^ 2 : ZMod p) * hx + (a₁ - a₂ * x : ZMod p) * h
  rw [resultant]
  push_cast
  generalize (a₁ * a₁ - a₀ * a₂ - 3 * a₂ * a₂ : ZMod p) = l₁ at hlinear ⊢
  generalize (a₁ * a₀ + a₂ * a₂ * b : ZMod p) = l₀ at hlinear ⊢
  linear_combination l₁ ^ 3 * hx + (3 * l₁ ^ 2 - l₀ ^ 2 + l₀ * l₁ * x - (l₁ * x) ^ 2) * hlinear

theorem cast_cubic (x : Nat) : ((cubic x : Nat) : ZMod p) = (x : ZMod p) ^ 3 - 3 * x + b := by
  rw [cubic, ZMod.natCast_mod, Nat.cast_add, Nat.cast_add, Nat.cast_mul, Nat.cast_mul,
    ZMod.natCast_mod, Nat.cast_sub (by decide), ZMod.natCast_self]
  push_cast
  ring

/-- **No ordinate is zero.** -/
theorem cubic_ne_zero (x : Nat) : cubic x ≠ 0 := by
  intro h
  have hx : (x : ZMod p) ^ 3 - 3 * x + b = 0 := by rw [← cast_cubic, h, Nat.cast_zero]
  have hvalue := OverRoot.value_frobenius hx
  rw [OverRoot.value] at hvalue
  have hzero := @resultant_eq_zero x OverRoot.frobenius.c₀ (OverRoot.frobenius.c₁ - 1)
    OverRoot.frobenius.c₂ hx (by push_cast; linear_combination hvalue)
  rw [ZMod.intCast_zmod_eq_zero_iff_dvd] at hzero
  revert hzero
  decide +kernel

theorem ordinate_pos {x y : Nat} (h : OnCurve x y) : 0 < y := by
  refine Nat.pos_of_ne_zero ?_
  rintro rfl
  exact cubic_ne_zero x h.2.2.symm

end DualSeal.P256

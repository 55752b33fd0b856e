import DualSeal.Threshold.Field
import Mathlib.Algebra.Field.Defs
import Mathlib.Algebra.BigOperators.Group.List.Basic
import Mathlib.Data.FinEnum
import Mathlib.Tactic.Ring

/-!
# The field laws of bytes

`Gf256` is a field of characteristic two. Multiplication is a sum of doublings, so it is additive
in both arguments and commutes with doubling; since one, doubling and addition generate all
elements (`generation`), associativity and commutativity follow by induction instead of by
enumeration.

Inverses come from the Frobenius map. Squaring is additive, so `a ^ 256 = a` need only be checked
on the generators, which makes `a ^ 255` idempotent; and there are no idempotents but zero and one.
-/

namespace DualSeal.Gf256

/-! ## Addition -/

theorem add_def (a b : Gf256) : a + b = ⟨a.byte ^^^ b.byte⟩ := rfl

theorem zero_def : (0 : Gf256) = ⟨0⟩ := rfl

private theorem add_assoc' (a b c : Gf256) : a + b + c = a + (b + c) := by
  simp only [add_def, UInt8.xor_assoc]

private theorem add_comm' (a b : Gf256) : a + b = b + a := by
  simp only [add_def, UInt8.xor_comm a.byte]

private theorem add_zero' (a : Gf256) : a + 0 = a := by
  simp only [add_def, zero_def, UInt8.xor_zero]

private theorem zero_add' (a : Gf256) : 0 + a = a := by
  rw [add_comm', add_zero']

theorem add_self (a : Gf256) : a + a = 0 := by
  simp only [add_def, zero_def, UInt8.xor_self]

private theorem add_add_add_comm' (a b c d : Gf256) : a + b + (c + d) = a + c + (b + d) := by
  rw [add_assoc', add_assoc', ← add_assoc' b, ← add_assoc' c, add_comm' b]

/-! ## Doubling -/

private theorem and_top (b : UInt8) : b &&& 0x80 = 0 ∨ b &&& 0x80 = 0x80 := by
  revert b
  decide +kernel

/-- The reduction that doubling makes, by the top bit. -/
private def carry (b : UInt8) : UInt8 := if b &&& 0x80 = 0 then 0 else 0x1d

private theorem xor_and_top (a b : UInt8) : (a ^^^ b) &&& 0x80 = (a &&& 0x80) ^^^ (b &&& 0x80) := by
  apply UInt8.toNat_inj.mp
  simp only [UInt8.toNat_and, UInt8.toNat_xor, Nat.and_xor_distrib_right]

private theorem carry_xor (a b : UInt8) : carry (a ^^^ b) = carry a ^^^ carry b := by
  rw [carry, carry, carry, xor_and_top]
  rcases and_top a with ha | ha <;> rcases and_top b with hb | hb <;> rw [ha, hb] <;> decide

private theorem double_eq_carry (a : Gf256) : a.double = ⟨(a.byte <<< 1) ^^^ carry a.byte⟩ := by
  rw [double, carry]
  split <;> simp

theorem double_add (a b : Gf256) : (a + b).double = a.double + b.double := by
  simp only [double_eq_carry, add_def, carry_xor, UInt8.shiftLeft_xor, mk.injEq]
  ac_rfl

@[simp] theorem double_zero : (0 : Gf256).double = 0 := by decide

/-! ## Multiplication -/

theorem mul_def (a b : Gf256) : a * b = mulBits a b.byte 8 0 := rfl

private theorem mulBits_add_left (a b : Gf256) (c : UInt8) (bits : Nat) (s t : Gf256) :
    mulBits (a + b) c bits (s + t) = mulBits a c bits s + mulBits b c bits t := by
  induction bits generalizing s t with
  | zero => rfl
  | succ bits ih =>
    rw [mulBits, mulBits, mulBits, double_add]
    split
    · rw [add_add_add_comm', ih]
    · exact ih _ _

private theorem mulBits_add_right (a : Gf256) (b c : UInt8) (bits : Nat) (s t : Gf256) :
    mulBits a (b ^^^ c) bits (s + t) = mulBits a b bits s + mulBits a c bits t := by
  induction bits generalizing s t with
  | zero => rfl
  | succ bits ih =>
    rw [mulBits, mulBits, mulBits, double_add, UInt8.toNat_xor, Nat.testBit_xor]
    -- When both bits are set, `a` is added on either side and cancels.
    cases b.toNat.testBit bits <;> cases c.toNat.testBit bits
    · exact ih _ _
    · rw [← ih]
      exact congrArg _ (add_assoc' _ _ _)
    · rw [← ih]
      refine congrArg _ ?_
      simp only [Bool.xor_false, if_true, Bool.false_eq_true, if_false]
      rw [add_assoc', add_comm' _ a, ← add_assoc']
    · rw [← ih]
      refine congrArg _ ?_
      simp only [Bool.xor_self, Bool.false_eq_true, if_true, if_false]
      rw [add_add_add_comm', add_self, add_zero']

private theorem mulBits_double (a : Gf256) (b : UInt8) (bits : Nat) (s : Gf256) :
    mulBits a.double b bits s.double = (mulBits a b bits s).double := by
  induction bits generalizing s with
  | zero => rfl
  | succ bits ih =>
    rw [mulBits, mulBits]
    split
    · rw [← double_add, ih]
    · exact ih _

private theorem add_mul' (a b c : Gf256) : (a + b) * c = a * c + b * c := by
  simpa only [mul_def, add_zero'] using mulBits_add_left a b c.byte 8 0 0

private theorem mul_add' (a b c : Gf256) : a * (b + c) = a * b + a * c := by
  simpa only [mul_def, add_def b, add_zero'] using mulBits_add_right a b.byte c.byte 8 0 0

theorem double_mul (a b : Gf256) : a.double * b = (a * b).double := by
  simpa only [mul_def, double_zero] using mulBits_double a b.byte 8 0

private theorem zero_mul' (a : Gf256) : 0 * a = 0 := by
  have h := add_mul' 0 0 a
  rwa [add_self, add_self] at h

private theorem one_mul' (a : Gf256) : 1 * a = a := by
  obtain ⟨b⟩ := a
  revert b
  decide +kernel

/-! ## Generation -/

private theorem mulBits_one_generated {P : Gf256 → Prop} (one : P 1)
    (double : ∀ a, P a → P a.double) (add : ∀ a b, P a → P b → P (a + b)) (b : UInt8)
    (bits : Nat) (s : Gf256) (hs : P s) : P (mulBits 1 b bits s) := by
  induction bits generalizing s with
  | zero => exact hs
  | succ bits ih =>
    rw [mulBits]
    split
    · exact ih _ (add _ _ (double _ hs) one)
    · exact ih _ (double _ hs)

/-- **Generation.** What holds of zero and one and passes on by doubling and addition holds of
every element. -/
theorem generation {P : Gf256 → Prop} (a : Gf256) (zero : P 0) (one : P 1)
    (double : ∀ a, P a → P a.double) (add : ∀ a b, P a → P b → P (a + b)) : P a := by
  rw [← one_mul' a]
  exact mulBits_one_generated one double add a.byte 8 0 zero

private theorem mul_double (a b : Gf256) : a * b.double = (a * b).double := by
  induction a using generation with
  | zero => rw [zero_mul', zero_mul', double_zero]
  | one => rw [one_mul', one_mul']
  | double a ih => rw [double_mul, double_mul, ih]
  | add a c iha ihc => rw [add_mul', add_mul', double_add, iha, ihc]

private theorem mul_zero' (a : Gf256) : a * 0 = 0 := by
  have h := mul_add' a 0 0
  rwa [add_self, add_self] at h

private theorem mul_one' (a : Gf256) : a * 1 = a := by
  induction a using generation with
  | zero => exact zero_mul' 1
  | one => exact one_mul' 1
  | double a ih => rw [double_mul, ih]
  | add a b iha ihb => rw [add_mul', iha, ihb]

private theorem mul_comm' (a b : Gf256) : a * b = b * a := by
  induction a using generation with
  | zero => rw [zero_mul', mul_zero']
  | one => rw [one_mul', mul_one']
  | double a ih => rw [double_mul, mul_double, ih]
  | add a c iha ihc => rw [add_mul', mul_add', iha, ihc]

private theorem mul_assoc' (a b c : Gf256) : a * b * c = a * (b * c) := by
  induction a using generation with
  | zero => rw [zero_mul', zero_mul', zero_mul']
  | one => rw [one_mul', one_mul']
  | double a ih => rw [double_mul, double_mul, double_mul, ih]
  | add a d iha ihd => rw [add_mul', add_mul', add_mul', iha, ihd]

instance : Neg Gf256 := ⟨id⟩

instance : Sub Gf256 := ⟨fun a b ↦ a + b⟩

instance : CommRing Gf256 where
  add_assoc := add_assoc'
  zero_add := zero_add'
  add_zero := add_zero'
  add_comm := add_comm'
  nsmul := nsmulRec
  zsmul := zsmulRec
  neg_add_cancel := add_self
  sub_eq_add_neg _ _ := rfl
  left_distrib := mul_add'
  right_distrib := add_mul'
  zero_mul := zero_mul'
  mul_zero := mul_zero'
  mul_assoc := mul_assoc'
  one_mul := one_mul'
  mul_one := mul_one'
  mul_comm := mul_comm'

@[simp] theorem neg_eq (a : Gf256) : -a = a := rfl

@[simp] theorem sub_eq_add (a b : Gf256) : a - b = a + b := rfl

/-! ## Inverses -/

theorem inv_eq_pow (a : Gf256) : a.inv = a ^ 254 := by
  simp only [inv, square]
  ring

private theorem add_square (a b : Gf256) : (a + b) ^ 2 = a ^ 2 + b ^ 2 := by
  have h : (a + b) ^ 2 = a ^ 2 + b ^ 2 + (a * b + a * b) := by ring
  rw [h, add_self, add_zero]

private theorem add_pow_two_pow (a b : Gf256) (k : Nat) :
    (a + b) ^ 2 ^ k = a ^ 2 ^ k + b ^ 2 ^ k := by
  induction k with
  | zero => simp
  | succ k ih => rw [pow_succ, pow_mul, ih, add_square, ← pow_mul, ← pow_mul]

theorem double_eq_mul (a : Gf256) : a.double = (1 : Gf256).double * a := by
  rw [double_mul, one_mul]

private theorem pow_256_double_one : (1 : Gf256).double ^ 2 ^ 8 = (1 : Gf256).double := by
  decide +kernel

/-- The eighth power of the Frobenius map is the identity. -/
theorem pow_256 (a : Gf256) : a ^ 256 = a := by
  -- As an iterate of squaring the power is additive; doubling is a product with a fixed element.
  change a ^ 2 ^ 8 = a
  induction a using generation with
  | zero => exact zero_pow (by norm_num)
  | one => exact one_pow _
  | double a ih => rw [double_eq_mul, mul_pow, ih, pow_256_double_one]
  | add a b iha ihb => rw [add_pow_two_pow, iha, ihb]

private theorem eq_zero_or_one_of_idempotent (a : Gf256) (h : a * a = a) : a = 0 ∨ a = 1 := by
  obtain ⟨b⟩ := a
  have all : ∀ b : UInt8, (⟨b⟩ : Gf256) * ⟨b⟩ = ⟨b⟩ → (⟨b⟩ : Gf256) = 0 ∨ (⟨b⟩ : Gf256) = 1 := by
    decide +kernel
  exact all b h

/-- Fermat's little theorem. -/
theorem pow_255 {a : Gf256} (ha : a ≠ 0) : a ^ 255 = 1 := by
  have idempotent : a ^ 255 * a ^ 255 = a ^ 255 := by
    calc a ^ 255 * a ^ 255 = a ^ 254 * a ^ 256 := by ring
      _ = a ^ 254 * a := by rw [pow_256]
      _ = a ^ 255 := by ring
  -- It is not zero, since `a = a ^ 255 * a` would be.
  rcases eq_zero_or_one_of_idempotent _ idempotent with h | h
  · refine absurd ?_ ha
    rw [← pow_256 a, pow_succ, h, zero_mul]
  · exact h

theorem mul_inv {a : Gf256} (ha : a ≠ 0) : a * a.inv = 1 := by
  rw [inv_eq_pow, ← pow_succ', pow_255 ha]

instance : Inv Gf256 := ⟨inv⟩

instance : Nontrivial Gf256 := ⟨0, 1, by decide⟩

instance : Field Gf256 where
  mul_inv_cancel _ ha := mul_inv ha
  inv_zero := by decide +kernel
  nnqsmul := _
  nnqsmul_def _ _ := rfl
  qsmul := _
  qsmul_def _ _ := rfl

/-! ## Lists -/

@[simp] theorem inv_eq (a : Gf256) : a.inv = a⁻¹ := rfl

@[simp] theorem product_eq (elements : List Gf256) : product elements = elements.prod := by
  induction elements with
  | nil => rfl
  | cons a elements ih => rw [List.prod_cons, ← ih]; rfl

@[simp] theorem sum_eq (elements : List Gf256) : sum elements = elements.sum := by
  induction elements with
  | nil => rfl
  | cons a elements ih => rw [List.sum_cons, ← ih]; rfl

end DualSeal.Gf256

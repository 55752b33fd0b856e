import DualSeal.Proofs.Threshold.Reconstruction
import Mathlib.Data.FinEnum
import Mathlib.Data.Fintype.BigOperators

/-!
# What too few shares show

One share less than the threshold asks for shows nothing of a secret but its length: whatever bytes
a splitting draws, there is exactly one choice of bytes with which any other secret of that length
leaves the same shares (`observe_lookAlike`), so that shares come from equally many choices for all
of them.

The coefficients of a polynomial are known from its value at zero, which is the byte of the secret,
and its values at as many other points as it has random coefficients (`eq_of_shareAt_eq`). So the
draws are known from the shares; and since there are as many draws as rows of bytes that the shares
can show, all rows are met, each by one choice (`bijective_rows`).
-/

namespace DualSeal

/-- The supply that begins with these bytes and goes on with zeros. -/
def Entropy.ofDraws {n : Nat} (draws : Fin n → UInt8) : Entropy := fun i ↦
  if h : i < n then draws ⟨i, h⟩ else 0

@[simp] theorem Entropy.ofDraws_apply {n : Nat} (draws : Fin n → UInt8) (i : Fin n) :
    Entropy.ofDraws draws i = draws i := dif_pos i.isLt

/-! ## Runs that look alike -/

/-- Two runs that draw as many bytes look alike: whatever the one draws and shows, there is exactly
one choice of draws with which the other shows the same, and everything that can be seen is shown
by equally many choices of both. -/
structure LookAlike {n : Nat} {α : Type} (f g : (Fin n → UInt8) → α) : Prop where
  existsUnique : ∀ draws, ∃! others, g others = f draws
  card_eq : ∀ seen, Nat.card {draws // f draws = seen} = Nat.card {others // g others = seen}

/-- Runs look alike if they show one thing of what stands in bijection with the draws of both. -/
theorem LookAlike.of_bijective {n : Nat} {α β : Type} {f g : (Fin n → UInt8) → β}
    {inner outer : (Fin n → UInt8) → α} (view : α → β) (hview : view.Injective)
    (hinner : inner.Bijective) (houter : outer.Bijective)
    (hf : ∀ draws, f draws = view (inner draws)) (hg : ∀ draws, g draws = view (outer draws)) :
    LookAlike f g where
  existsUnique draws := by
    obtain ⟨others, hothers, hunique⟩ := houter.existsUnique (inner draws)
    refine ⟨others, ?_, fun draws' h ↦ hunique draws' (hview ?_)⟩
    · dsimp only
      rw [hg, hf, hothers]
    · rw [← hg, ← hf, h]
  card_eq seen := by
    -- The draws that lead to the same thing in both runs.
    let matching := (Equiv.ofBijective inner hinner).trans (Equiv.ofBijective outer houter).symm
    have hmatching : ∀ draws, outer (matching draws) = inner draws := fun draws ↦
      (Equiv.ofBijective outer houter).apply_symm_apply (inner draws)
    exact Nat.card_congr (matching.subtypeEquiv fun draws ↦ by rw [hf, hg, hmatching])

namespace Shamir

/-! ## Draws -/

theorem polynomials_eq_iff {degree start : Nat} {random other : Entropy} {secret : Bytes} :
    polynomials degree random start secret = polynomials degree other start secret
      ↔ ∀ i < degree * secret.length, random (start + i) = other (start + i) := by
  induction secret generalizing start with
  | nil => simp [polynomials]
  | cons byte secret ih =>
    have hslice : random.slice start degree = other.slice start degree
        ↔ ∀ i < degree, random (start + i) = other (start + i) := by
      simp [Entropy.slice]
    have hbyte : polynomial byte (random.slice start degree)
          = polynomial byte (other.slice start degree)
        ↔ random.slice start degree = other.slice start degree := by
      rw [polynomial, polynomial, List.cons_inj_right,
        List.map_inj_right fun a b h ↦ Gf256.mk.inj h]
    rw [polynomials, polynomials, List.cons.injEq, hbyte, hslice, ih, List.length_cons,
      Nat.mul_succ]
    -- The draws for this byte come first, those for the rest behind them.
    constructor
    · rintro ⟨hfirst, hrest⟩ i hi
      by_cases hlt : i < degree
      · exact hfirst i hlt
      · have := hrest (i - degree) (by omega)
        rwa [show start + degree + (i - degree) = start + i by omega] at this
    · refine fun h ↦ ⟨fun i hi ↦ h i (by omega), fun i hi ↦ ?_⟩
      rw [Nat.add_assoc]
      exact h _ (by omega)

/-- A splitting draws one byte less than the threshold for every byte of the secret. -/
theorem split_congr {random other : Entropy} {secret : Bytes} {parts threshold : Nat}
    (h : ∀ i < (threshold - 1) * secret.length, random i = other i) :
    split random secret parts threshold = split other secret parts threshold := by
  have hpolynomials : polynomials (threshold - 1) random 0 secret
      = polynomials (threshold - 1) other 0 secret :=
    polynomials_eq_iff.mpr fun i hi ↦ by rw [Nat.zero_add, h i hi]
  rw [split, split, hpolynomials]

theorem split_ofDraws (random : Entropy) (secret : Bytes) (parts threshold : Nat) :
    split (.ofDraws fun i : Fin ((threshold - 1) * secret.length) ↦ random i) secret parts
      threshold = split random secret parts threshold :=
  split_congr fun _ hi ↦ dif_pos hi

/-! ## Rows -/

/-- The share at a point without the point: the values of the polynomials. -/
def row (fs : List (List Gf256)) (x : UInt8) : Bytes := fs.map fun f ↦ (evaluate f ⟨x⟩).byte

/-- The rows at as many points other than zero as there are random coefficients determine the
polynomials of a secret. -/
theorem eq_of_row_eq {ι : Type} [Fintype ι] {points : ι → UInt8} (hinj : points.Injective)
    (hzero : ∀ i, points i ≠ 0) {degree start : Nat} (hcard : degree ≤ Fintype.card ι)
    {random other : Entropy} {secret : Bytes}
    (h : ∀ i, row (polynomials degree random start secret) (points i)
      = row (polynomials degree other start secret) (points i)) :
    polynomials degree random start secret = polynomials degree other start secret := by
  classical
  induction secret generalizing start with
  | nil => rfl
  | cons byte secret ih =>
    have hrow := fun i ↦ List.cons.inj (h i)
    rw [polynomials, polynomials, ih fun i ↦ (hrow i).2]
    congr 1
    -- Besides the points, the polynomials of the byte agree at zero.
    have hnew : (0 : Gf256) ∉ Finset.univ.image fun i ↦ Gf256.mk (points i) := by
      rw [Finset.mem_image]
      rintro ⟨i, -, hi⟩
      exact hzero i (congrArg Gf256.byte hi)
    have hpoints : (Finset.univ.image fun i ↦ Gf256.mk (points i)).card = Fintype.card ι :=
      Finset.card_image_of_injective _ fun i j hij ↦ hinj (congrArg Gf256.byte hij)
    refine @eq_of_evaluate_eq _ _ (by simp [polynomial, Entropy.slice])
      (insert 0 (Finset.univ.image fun i ↦ Gf256.mk (points i))) ?_ ?_
    · rw [Finset.card_insert_of_notMem hnew, hpoints]
      simpa [polynomial, Entropy.slice] using hcard
    · intro x hx
      rcases Finset.mem_insert.mp hx with rfl | hx
      · rw [polynomial, polynomial, evaluate_zero, evaluate_zero]
      · obtain ⟨i, -, rfl⟩ := Finset.mem_image.mp hx
        exact congrArg Gf256.mk (hrow i).1

/-- What the shares at these points show of a secret, their rows, as a function of the draws. -/
def rows {ι : Type} {size n : Nat} (degree : Nat) (points : ι → UInt8)
    (secret : List.Vector UInt8 size) (draws : Fin n → UInt8) : ι → List.Vector UInt8 size :=
  fun i ↦
  ⟨row (polynomials degree (.ofDraws draws) 0 secret.toList) (points i), by
    rw [row, List.length_map, length_polynomials, List.Vector.toList_length]⟩

/-- As many rows as there are random coefficients can be anything, each for one choice of draws. -/
theorem bijective_rows {ι : Type} [Fintype ι] {points : ι → UInt8} (hinj : points.Injective)
    (hzero : ∀ i, points i ≠ 0) {degree size n : Nat} (hdegree : Fintype.card ι = degree)
    (hn : n = degree * size) (secret : List.Vector UInt8 size) :
    (rows degree points secret : (Fin n → UInt8) → _).Bijective := by
  classical
  subst hn hdegree
  rw [Fintype.bijective_iff_injective_and_card]
  constructor
  · intro draws others h
    have hpolynomials := eq_of_row_eq hinj hzero le_rfl fun i ↦
      congrArg List.Vector.toList (congrFun h i)
    funext i
    have hi := polynomials_eq_iff.mp hpolynomials i (by simp)
    rwa [Nat.zero_add, Entropy.ofDraws_apply, Entropy.ofDraws_apply] at hi
  · rw [Fintype.card_pi_const, Fintype.card_fun, card_vector, pow_mul']

/-- The share with a row, at a point. -/
def shareOfRow {size : Nat} (x : UInt8) (row : List.Vector UInt8 size) : Share :=
  ⟨row.toList ++ [x]⟩

theorem shareOfRow_injective {size : Nat} (x : UInt8) :
    (shareOfRow x : List.Vector UInt8 size → Share).Injective := fun _ _ h ↦
  Subtype.ext (List.append_cancel_right (Share.mk.inj h))

/-! ## Shares -/

/-- The shares of the observed numbers in the outcome of a splitting with these draws. -/
def observe {parts n : Nat} (threshold : Nat) (observed : Finset (Fin parts)) (secret : Bytes)
    (draws : Fin n → UInt8) : Except ThresholdError (observed → Option Share) :=
  (split (.ofDraws draws) secret parts threshold).map fun shares i ↦ shares[i.1.1]?

theorem ofNat_ne_zero {parts : Nat} (hmax : parts ≤ 255) (i : Fin parts) :
    UInt8.ofNat (i + 1) ≠ 0 := by
  intro h
  have := congrArg UInt8.toNat h
  rw [UInt8.toNat_ofNat', Nat.mod_eq_of_lt (by omega)] at this
  exact Nat.succ_ne_zero _ this

theorem ofNat_injective {parts : Nat} (hmax : parts ≤ 255) :
    (fun i : Fin parts ↦ UInt8.ofNat (i + 1)).Injective := by
  intro i j h
  have := congrArg UInt8.toNat h
  dsimp only at this
  rw [UInt8.toNat_ofNat', UInt8.toNat_ofNat', Nat.mod_eq_of_lt (by omega),
    Nat.mod_eq_of_lt (by omega)] at this
  omega

/-- The same, when the observed shares have these rows. -/
def observeRows {parts size : Nat} (observed : Finset (Fin parts))
    (rows : observed → List.Vector UInt8 size) :
    Except ThresholdError (observed → Option Share) :=
  .ok fun i ↦ some (shareOfRow (UInt8.ofNat (i.1 + 1)) (rows i))

theorem observeRows_injective {parts size : Nat} (observed : Finset (Fin parts)) :
    (observeRows observed : (observed → List.Vector UInt8 size) → _).Injective := fun _ _ h ↦
  funext fun i ↦ shareOfRow_injective _ (Option.some.inj (congrFun (Except.ok.inj h) i))

theorem observe_eq {parts threshold size : Nat} {observed : Finset (Fin parts)}
    (htwo : 2 ≤ threshold) (hparts : threshold ≤ parts) (hmax : parts ≤ 255) (hsize : 0 < size)
    (secret : List.Vector UInt8 size) (draws : Fin ((threshold - 1) * size) → UInt8) :
    observe threshold observed secret.toList draws
      = observeRows observed
          (rows (threshold - 1) (fun i ↦ UInt8.ofNat (i.1 + 1)) secret draws) := by
  have hsecret : secret.toList ≠ [] := by
    rw [← List.length_pos_iff, List.Vector.toList_length]
    exact hsize
  rw [observe, split_eq_ok _ hsecret htwo hparts hmax]
  refine congrArg Except.ok (funext fun i ↦ ?_)
  have hi : (points parts)[i.1.1]? = some (UInt8.ofNat (i.1 + 1)) := by
    rw [points, List.getElem?_map, List.getElem?_range i.1.isLt, Option.map_some]
  dsimp only
  rw [List.getElem?_map, hi]
  rfl

/-- **Secrecy.** One share less than the threshold asks for looks alike for all secrets of one
length. -/
theorem observe_lookAlike {parts threshold size : Nat} {secret other : Bytes}
    {observed : Finset (Fin parts)} (htwo : 2 ≤ threshold) (hparts : threshold ≤ parts)
    (hmax : parts ≤ 255) (hsize : 0 < size) (hsecret : secret.length = size)
    (hother : other.length = size) (hobserved : observed.card + 1 = threshold) :
    LookAlike
      (observe threshold observed secret : (Fin ((threshold - 1) * size) → UInt8) → _)
      (observe threshold observed other) := by
  have hcard : Fintype.card observed = threshold - 1 := by
    rw [Fintype.card_coe]
    omega
  have hrows : ∀ secret : List.Vector UInt8 size,
      (rows (threshold - 1) (fun i : observed ↦ UInt8.ofNat (i.1 + 1)) secret :
        (Fin ((threshold - 1) * size) → UInt8) → _).Bijective :=
    bijective_rows ((ofNat_injective hmax).comp Subtype.val_injective)
      (fun i ↦ ofNat_ne_zero hmax i.1) hcard rfl
  exact LookAlike.of_bijective (observeRows observed) (observeRows_injective observed)
    (hrows ⟨secret, hsecret⟩) (hrows ⟨other, hother⟩)
    (observe_eq htwo hparts hmax hsize ⟨secret, hsecret⟩)
    (observe_eq htwo hparts hmax hsize ⟨other, hother⟩)

end Shamir

end DualSeal

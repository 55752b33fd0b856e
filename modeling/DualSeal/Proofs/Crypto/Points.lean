import DualSeal.Proofs.Crypto.Roots
import DualSeal.Proofs.Keys.Text

/-!
# The encodings of a point

A point has an uncompressed form and a compressed one, which gives the parity of the ordinate, and
either the point or its negative has a compact form, too, which gives the abscissa only and means
the smaller ordinate. Reading takes these for the point that they are forms of, and takes nothing
else (`decode?_eq_some_iff`): with the abscissa there are two ordinates at most, one of each parity,
and one of them is found.
-/

namespace DualSeal

theorem Bytes.ofNat_toNat (bytes : Bytes) : ofNat bytes.length (toNat bytes) = bytes := by
  induction bytes using List.reverseRecOn with
  | nil => rfl
  | append_singleton bytes b ih =>
    have hb := b.toNat_lt
    have hhigh : (toNat bytes * 256 + b.toNat) / 256 = toNat bytes := by omega
    have hlow : UInt8.ofNat (toNat bytes * 256 + b.toNat) = b := by
      rw [← UInt8.toNat_inj, UInt8.toNat_ofNat']
      omega
    rw [toNat_concat, List.length_append, List.length_singleton, ofNat, hhigh, hlow, ih]

theorem Bytes.eq_ofNat {bytes : Bytes} {width n : Nat} (hlength : bytes.length = width)
    (hn : toNat bytes = n) : bytes = ofNat width n := by
  rw [← hlength, ← hn, ofNat_toNat]

namespace P256.Point

/-- The bytes are a form of the point. -/
inductive Form (point : Point) : Bytes → Prop where
  | uncompressed : Form point point.encode
  | compressed : Form point point.compress
  /-- The ordinate is the smaller one of the two over the abscissa. -/
  | compact (h : point.y ≤ p - point.y) : Form point (0x05 :: Bytes.ofNat width point.x)

theorem mk?_eq_some_iff {x y : Nat} {point : Point} :
    mk? x y = some point ↔ x = point.x ∧ y = point.y := by
  rw [mk?]
  constructor
  · intro h
    split at h
    · obtain rfl := Option.some.inj h
      exact ⟨rfl, rfl⟩
    · cases h
  · rintro ⟨rfl, rfl⟩
    exact dif_pos point.onCurve

theorem exists_root (point : Point) :
    ∃ root, sqrt? (cubic point.x) = some root ∧ 0 < root ∧ root < p ∧
      (point.y = root ∨ point.y = p - root) := by
  obtain ⟨-, hy, heq⟩ := point.onCurve
  have hreduced : cubic point.x % p = cubic point.x := Nat.mod_mod _ _
  obtain ⟨root, hroot⟩ := exists_sqrt?_eq_some (heq.trans hreduced.symm)
  obtain ⟨hlt, hsquare⟩ := sqrt?_eq_some hroot
  have hpos : 0 < root := by
    refine Nat.pos_of_ne_zero ?_
    rintro rfl
    exact cubic_ne_zero point.x (hreduced.symm.trans hsquare.symm)
  refine ⟨root, hroot, hpos, hlt, eq_or_eq_sub hlt hy hpos ?_⟩
  rw [hsquare, heq, hreduced]

/-- The point over an abscissa is the one whose ordinate is chosen, if always one of two is. -/
theorem lift?_eq_some_iff {x : Nat} {choose : Nat → Bool} {point : Point}
    (hchoose : ∀ y, 0 < y → y < p → choose (sub 0 y) = !choose y) :
    lift? x choose = some point ↔ x = point.x ∧ choose point.y = true := by
  obtain ⟨root, hroot, hpos, hlt, hy⟩ := exists_root point
  have hnegative := hchoose root hpos hlt
  rw [← sub_zero_of_pos hpos] at hy
  constructor
  · intro h
    rw [lift?] at h
    obtain ⟨other, hother, hmk⟩ := Option.bind_eq_some_iff.mp h
    obtain ⟨rfl, hordinate⟩ := mk?_eq_some_iff.mp hmk
    obtain rfl : root = other := Option.some.inj (hroot.symm.trans hother)
    refine ⟨rfl, ?_⟩
    cases hyes : choose root with
    | true => rw [← hordinate, if_pos hyes, hyes]
    | false => rw [← hordinate, if_neg (by simp [hyes]), hnegative, hyes, Bool.not_false]
  · rintro ⟨rfl, hpoint⟩
    rw [lift?, hroot, Option.bind_eq_bind, Option.bind_some, mk?_eq_some_iff]
    refine ⟨rfl, ?_⟩
    rcases hy with hy | hy
    · rw [if_pos (hy ▸ hpoint), hy]
    · rw [hy, hnegative, Bool.not_eq_true'] at hpoint
      rw [if_neg (by simp [hpoint]), hy]

/-! ## Reading -/

theorem sub_zero_sub {y : Nat} (hpos : 0 < y) (hlt : y < p) : sub 0 (sub 0 y) = y := by
  rw [sub_zero_of_pos hpos, sub_zero_of_pos (by omega)]
  omega

theorem p_mod_two : p % 2 = 1 := by decide

theorem choose_parity (parity : Nat) (hparity : parity < 2) {y : Nat} (hpos : 0 < y) (hlt : y < p) :
    decide (sub 0 y % 2 = parity) = !decide (y % 2 = parity) := by
  have hp := p_mod_two
  rw [sub_zero_of_pos hpos, ← decide_not, decide_eq_decide]
  omega

theorem choose_smaller {y : Nat} (hpos : 0 < y) (hlt : y < p) :
    decide (sub 0 y ≤ sub 0 (sub 0 y)) = !decide (y ≤ sub 0 y) := by
  have hp := p_mod_two
  rw [sub_zero_sub hpos hlt, sub_zero_of_pos hpos, ← decide_not, decide_eq_decide]
  omega

theorem decode?_uncompressed {body : Bytes} {point : Point} :
    decode? (0x04 :: body) = some point
      ↔ body = Bytes.ofNat width point.x ++ Bytes.ofNat width point.y := by
  constructor
  · intro h
    rw [decode?, if_pos rfl] at h
    split at h
    · rename_i hlength
      obtain ⟨hx, hy⟩ := mk?_eq_some_iff.mp h
      have htake : (body.take width).length = width := by
        rw [List.length_take, hlength]
        rfl
      have hdrop : (body.drop width).length = width := by
        rw [List.length_drop, hlength]
        rfl
      rw [← Bytes.eq_ofNat htake hx, ← Bytes.eq_ofNat hdrop hy, List.take_append_drop]
    · cases h
  · intro hbody
    rw [hbody, ← encode, decode?_encode]

/-- With the abscissa alone, the form says which ordinate is meant. -/
theorem decode?_abscissa {form : UInt8} (hform : form = 0x02 ∨ form = 0x03 ∨ form = 0x05)
    {body : Bytes} {point : Point} :
    decode? (form :: body) = some point ↔ body = Bytes.ofNat width point.x ∧
      if form = 0x05 then point.y ≤ sub 0 point.y else point.y % 2 = form.toNat % 2 := by
  have hfour : form ≠ 0x04 := by
    rcases hform with rfl | rfl | rfl <;> decide
  have hchoose : ∀ y, 0 < y → y < p →
      (if form = 0x05 then decide (sub 0 y ≤ sub 0 (sub 0 y))
        else decide (sub 0 y % 2 = form.toNat % 2))
        = !(if form = 0x05 then decide (y ≤ sub 0 y) else decide (y % 2 = form.toNat % 2)) := by
    intro y hpos hlt
    by_cases hfive : form = 0x05
    · rw [if_pos hfive, if_pos hfive, choose_smaller hpos hlt]
    · rw [if_neg hfive, if_neg hfive, choose_parity _ (Nat.mod_lt _ Nat.zero_lt_two) hpos hlt]
  have hx : point.x < 256 ^ width := Nat.lt_trans point.onCurve.1 (by decide)
  rw [decode?, if_neg hfour, if_pos hform]
  by_cases hlength : body.length = width
  · have hbody : Bytes.toNat body = point.x ↔ body = Bytes.ofNat width point.x :=
      ⟨Bytes.eq_ofNat hlength, fun heq ↦ by rw [heq, Bytes.toNat_ofNat_of_lt hx]⟩
    rw [if_pos hlength, lift?_eq_some_iff hchoose, hbody]
    by_cases hfive : form = 0x05
    · rw [if_pos hfive, if_pos hfive, decide_eq_true_eq]
    · rw [if_neg hfive, if_neg hfive, decide_eq_true_eq]
  · rw [if_neg hlength]
    constructor
    · intro h
      cases h
    · rintro ⟨hbody, -⟩
      rw [hbody, Bytes.length_ofNat] at hlength
      exact absurd rfl hlength

/-- **Reading a point.** The bytes are read as the point exactly when they are a form of it. -/
theorem decode?_eq_some_iff {bytes : Bytes} {point : Point} :
    decode? bytes = some point ↔ Form point bytes := by
  have hnegative : sub 0 point.y = p - point.y := sub_zero_of_pos (ordinate_pos point.onCurve)
  constructor
  · intro h
    cases bytes with
    | nil => cases h
    | cons form body =>
      by_cases hfour : form = 0x04
      · subst hfour
        rw [decode?_uncompressed.mp h, ← encode]
        exact .uncompressed
      by_cases hform : form = 0x02 ∨ form = 0x03 ∨ form = 0x05
      · obtain ⟨hbody, hchosen⟩ := (decode?_abscissa hform).mp h
        rw [hbody]
        rcases hform with rfl | rfl | rfl
        · have heven : point.y % 2 = 0 := hchosen
          have hcompress : point.compress = 0x02 :: Bytes.ofNat width point.x := by
            rw [compress, if_pos heven]
          rw [← hcompress]
          exact .compressed
        · have hodd : point.y % 2 = 1 := hchosen
          have hcompress : point.compress = 0x03 :: Bytes.ofNat width point.x := by
            rw [compress, if_neg (Nat.mod_two_ne_zero.mpr hodd)]
          rw [← hcompress]
          exact .compressed
        · have hsmaller : point.y ≤ sub 0 point.y := hchosen
          rw [hnegative] at hsmaller
          exact .compact hsmaller
      · rw [decode?, if_neg hfour, if_neg hform] at h
        cases h
  · intro h
    cases h with
    | uncompressed => exact point.decode?_encode
    | compressed =>
      rw [compress]
      split
      · rename_i heven
        exact (decode?_abscissa (.inl rfl)).mpr ⟨rfl, heven⟩
      · rename_i hodd
        exact (decode?_abscissa (.inr (.inl rfl))).mpr ⟨rfl, Nat.mod_two_ne_zero.mp hodd⟩
    | compact h => exact (decode?_abscissa (.inr (.inr rfl))).mpr ⟨rfl, hnegative.symm ▸ h⟩

end P256.Point

end DualSeal

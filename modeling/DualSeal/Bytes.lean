/-!
# Byte strings

Every octet sequence of the library, from a share to a sealed message, is a plain list of
`UInt8`. A list has induction and `++` at hand, which is what the codec and cipher laws are
stated with, and the inputs are small enough that nothing faster is needed.
-/

namespace DualSeal

abbrev Bytes := List UInt8

namespace Bytes

/-- The natural number that a byte string spells, most significant byte first. -/
def toNat (bytes : Bytes) : Nat := bytes.foldl (fun n b ↦ n * 256 + b.toNat) 0

/-- The last `width` bytes of the base-256 spelling of `n`, most significant first. -/
def ofNat : (width n : Nat) → Bytes
  | 0, _ => []
  | width + 1, n => ofNat width (n / 256) ++ [UInt8.ofNat n]

@[simp] theorem length_ofNat (width n : Nat) : (ofNat width n).length = width := by
  induction width generalizing n with
  | zero => rfl
  | succ width ih => simp [ofNat, ih]

/-- Exclusive or, byte by byte, as long as both strings last. -/
def xor (a b : Bytes) : Bytes := List.zipWith (· ^^^ ·) a b

/-- The bytes of an ASCII text; a character beyond ASCII keeps its low eight bits only. -/
def ofAscii (text : String) : Bytes := text.toList.map fun c ↦ UInt8.ofNat c.toNat

/-- Each byte read as the character of that code point. -/
def toLatin (bytes : Bytes) : String := String.ofList (bytes.map fun b ↦ Char.ofNat b.toNat)

end Bytes

/-- `items` cut into runs of `size`, the last one possibly shorter; `fuel` bounds their number. -/
def chunksWithin (size : Nat) {α : Type} : (fuel : Nat) → List α → List (List α)
  | 0, _ => []
  | _ + 1, [] => []
  | fuel + 1, a :: items =>
    (a :: items).take size :: chunksWithin size fuel ((a :: items).drop size)

/-- `items` cut into runs of `size`, the last one possibly shorter. -/
def chunks {α : Type} (size : Nat) (items : List α) : List (List α) :=
  chunksWithin size items.length items

end DualSeal

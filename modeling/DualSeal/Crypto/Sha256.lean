import DualSeal.Bytes

/-!
# SHA-256

The message schedule is a sliding window: of the sixteen words in view, the first is the word of
the current round, and four of them make the word that enters sixteen rounds later, so that every
round is the same step.
-/

namespace DualSeal.Sha256

/-- The eight working words. -/
structure State where
  a : UInt32
  b : UInt32
  c : UInt32
  d : UInt32
  e : UInt32
  f : UInt32
  g : UInt32
  h : UInt32
  deriving DecidableEq

/-- Square roots of the first eight primes, fractional part. -/
def initial : State :=
  ⟨0x6a09e667, 0xbb67ae85, 0x3c6ef372, 0xa54ff53a, 0x510e527f, 0x9b05688c, 0x1f83d9ab, 0x5be0cd19⟩

/-- Cube roots of the first sixty-four primes, fractional part. -/
def roundConstants : List UInt32 :=
  [0x428a2f98, 0x71374491, 0xb5c0fbcf, 0xe9b5dba5, 0x3956c25b, 0x59f111f1, 0x923f82a4, 0xab1c5ed5,
    0xd807aa98, 0x12835b01, 0x243185be, 0x550c7dc3, 0x72be5d74, 0x80deb1fe, 0x9bdc06a7, 0xc19bf174,
    0xe49b69c1, 0xefbe4786, 0x0fc19dc6, 0x240ca1cc, 0x2de92c6f, 0x4a7484aa, 0x5cb0a9dc, 0x76f988da,
    0x983e5152, 0xa831c66d, 0xb00327c8, 0xbf597fc7, 0xc6e00bf3, 0xd5a79147, 0x06ca6351, 0x14292967,
    0x27b70a85, 0x2e1b2138, 0x4d2c6dfc, 0x53380d13, 0x650a7354, 0x766a0abb, 0x81c2c92e, 0x92722c85,
    0xa2bfe8a1, 0xa81a664b, 0xc24b8b70, 0xc76c51a3, 0xd192e819, 0xd6990624, 0xf40e3585, 0x106aa070,
    0x19a4c116, 0x1e376c08, 0x2748774c, 0x34b0bcb5, 0x391c0cb3, 0x4ed8aa4a, 0x5b9cca4f, 0x682e6ff3,
    0x748f82ee, 0x78a5636f, 0x84c87814, 0x8cc70208, 0x90befffa, 0xa4506ceb, 0xbef9a3f7, 0xc67178f2]

/-- Rotation to the right, by less than a whole word and more than nothing. -/
def rotr (x : UInt32) (n : UInt32) : UInt32 := (x >>> n) ||| (x <<< (32 - n))

/-- One round with the schedule word `w` and the round constant `k`. -/
def State.round (s : State) (w k : UInt32) : State :=
  let s1 := rotr s.e 6 ^^^ rotr s.e 11 ^^^ rotr s.e 25
  let choice := (s.e &&& s.f) ^^^ ((~~~s.e) &&& s.g)
  let t1 := s.h + s1 + choice + k + w
  let s0 := rotr s.a 2 ^^^ rotr s.a 13 ^^^ rotr s.a 22
  let majority := (s.a &&& s.b) ^^^ (s.a &&& s.c) ^^^ (s.b &&& s.c)
  ⟨t1 + s0 + majority, s.a, s.b, s.c, s.d + t1, s.e, s.f, s.g⟩

/-- The schedule word that enters behind a window of sixteen. -/
def nextWord (window : List UInt32) : UInt32 :=
  let w1 := window.getD 1 0
  let w14 := window.getD 14 0
  (rotr w14 17 ^^^ rotr w14 19 ^^^ (w14 >>> 10)) + window.getD 9 0 +
    (rotr w1 7 ^^^ rotr w1 18 ^^^ (w1 >>> 3)) + window.getD 0 0

/-- The rounds for the constants that are left. -/
def State.rounds (s : State) : (window constants : List UInt32) → State
  | _, [] => s
  | window, k :: ks =>
    (s.round (window.getD 0 0) k).rounds (window.drop 1 ++ [nextWord window]) ks

/-- The state after a block of sixteen words. -/
def State.absorb (s : State) (block : List UInt32) : State :=
  let t := s.rounds block roundConstants
  ⟨s.a + t.a, s.b + t.b, s.c + t.c, s.d + t.d, s.e + t.e, s.f + t.f, s.g + t.g, s.h + t.h⟩

/-- The four bytes of a word, most significant first. -/
def bytesOfWord (w : UInt32) : Bytes :=
  [(w >>> 24).toUInt8, (w >>> 16).toUInt8, (w >>> 8).toUInt8, w.toUInt8]

def State.bytes (s : State) : Bytes :=
  [s.a, s.b, s.c, s.d, s.e, s.f, s.g, s.h].flatMap bytesOfWord

@[simp] theorem State.length_bytes (s : State) : s.bytes.length = 32 := rfl

/-- The words that a byte string spells, four bytes each. -/
def words : Bytes → List UInt32
  | a :: b :: c :: d :: rest =>
    ((a.toUInt32 <<< 24) ||| (b.toUInt32 <<< 16) ||| (c.toUInt32 <<< 8) ||| d.toUInt32) ::
      words rest
  | _ => []

/-- The message filled up to whole blocks: a set bit, zeros, and the length in bits. -/
def padded (message : Bytes) : Bytes :=
  let length := message.length
  message ++ 0x80 :: List.replicate ((119 - length % 64) % 64) 0 ++ Bytes.ofNat 8 (length * 8)

/-- The digest of a message: thirty-two bytes. -/
def digest (message : Bytes) : Bytes :=
  ((chunks 16 (words (padded message))).foldl State.absorb initial).bytes

@[simp] theorem length_digest (message : Bytes) : (digest message).length = 32 :=
  State.length_bytes _

end DualSeal.Sha256

import DualSeal.Crypto.Sha256

/-!
# Keyed hashing and key derivation

HMAC and the extract-and-expand derivation HKDF, both over SHA-256.
-/

namespace DualSeal

def Hmac.blockSize : Nat := 64

/-- A key of exactly one block: hashed when it is longer, filled with zeros when it is shorter. -/
def Hmac.block (key : Bytes) : Bytes :=
  let short := if key.length ≤ blockSize then key else Sha256.digest key
  short ++ List.replicate (blockSize - short.length) 0

/-- The authentication code of a message under a key: thirty-two bytes. -/
def Hmac.tag (key message : Bytes) : Bytes :=
  let block := Hmac.block key
  Sha256.digest (block.map (· ^^^ 0x5c) ++ Sha256.digest (block.map (· ^^^ 0x36) ++ message))

/-- A pseudorandom key from input key material. -/
def Hkdf.extract (salt material : Bytes) : Bytes := Hmac.tag salt material

/-- Output blocks from block number `index` on, each chained to the one before. -/
def Hkdf.blocks (key info : Bytes) : (count index : Nat) → (previous : Bytes) → Bytes
  | 0, _, _ => []
  | count + 1, index, previous =>
    let block := Hmac.tag key (previous ++ info ++ [UInt8.ofNat index])
    block ++ Hkdf.blocks key info count (index + 1) block

/-- The first `length` bytes of the key stream for `info`. -/
def Hkdf.expand (key info : Bytes) (length : Nat) : Bytes :=
  (Hkdf.blocks key info ((length + 31) / 32) 1 []).take length

end DualSeal

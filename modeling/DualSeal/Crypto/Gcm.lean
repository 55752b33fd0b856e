import DualSeal.Crypto.Aes

/-!
# AES-256-GCM

Authenticated encryption in Galois/counter mode with a nonce of twelve bytes and a tag of sixteen.
Encryption appends the tag to the ciphertext; decryption checks it before it deciphers.
-/

namespace DualSeal.Gcm

/-- Bytes of a block, and of a tag. -/
def blockSize : Nat := 16

/-- Bits of the running product: `z` collects the multiples of `v` that the bits of `x` select, the
most significant bit first, while `v` is multiplied by the field's variable in every step. -/
def mulBits (x : Nat) : (bits : Nat) → (z v : Nat) → Nat
  | 0, z, _ => z
  | bits + 1, z, v =>
    mulBits x bits (if x.testBit bits then z ^^^ v else z)
      (if v.testBit 0 then (v >>> 1) ^^^ (0xe1 <<< 120) else v >>> 1)

/-- Multiplication in the field of 2^128 elements, in the mode's bit order. -/
def mul (x y : Nat) : Nat := mulBits x 128 0 y

/-- The hash of whole blocks: each is added to the sum, which is then multiplied by the key. -/
def ghash (h : Nat) (blocks : List Bytes) : Nat :=
  blocks.foldl (fun sum block ↦ mul (sum ^^^ Bytes.toNat block) h) 0

/-- Bytes filled up with zeros to whole blocks. -/
def zeroFilled (bytes : Bytes) : Bytes :=
  bytes ++ List.replicate ((blockSize - bytes.length % blockSize) % blockSize) 0

/-- The counter block of a nonce. -/
def counterBlock (nonce : Bytes) (counter : Nat) : Bytes := nonce ++ Bytes.ofNat 4 counter

/-- Counter mode over blocks: each is added to the enciphered counter block, the last one as far as
it goes. -/
def counterMode (keys : List Bytes) (nonce : Bytes) : (counter : Nat) → List Bytes → Bytes
  | _, [] => []
  | counter, block :: blocks =>
    block.xor (Aes.encryptWith keys (counterBlock nonce counter)) ++
      counterMode keys nonce (counter + 1) blocks

def tag (keys : List Bytes) (nonce aad ciphertext : Bytes) : Bytes :=
  let h := Bytes.toNat (Aes.encryptWith keys (List.replicate blockSize 0))
  let lengths := Bytes.ofNat 8 (aad.length * 8) ++ Bytes.ofNat 8 (ciphertext.length * 8)
  let sum := ghash h (chunks blockSize (zeroFilled aad ++ zeroFilled ciphertext ++ lengths))
  (Bytes.ofNat blockSize sum).xor (Aes.encryptWith keys (counterBlock nonce 1))

/-- The ciphertext of a message, followed by its tag. -/
def encrypt (key nonce aad plaintext : Bytes) : Bytes :=
  let keys := Aes.roundKeys key
  let ciphertext := counterMode keys nonce 2 (chunks blockSize plaintext)
  ciphertext ++ tag keys nonce aad ciphertext

/-- The message of a sealed text whose last sixteen bytes are the right tag. -/
def decrypt? (key nonce aad sealed : Bytes) : Option Bytes :=
  let keys := Aes.roundKeys key
  let ciphertext := sealed.take (sealed.length - blockSize)
  if tag keys nonce aad ciphertext = sealed.drop (sealed.length - blockSize) then
    some (counterMode keys nonce 2 (chunks blockSize ciphertext))
  else none

end DualSeal.Gcm

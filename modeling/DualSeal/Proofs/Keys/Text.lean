import DualSeal.Keys.KeyPair
import DualSeal.Proofs.Encoding.Der
import DualSeal.Proofs.Encoding.Pem
import DualSeal.Proofs.Text.Utf8

/-!
# Keys are read back from their texts

A key is written as a block of base64 around nested elements around a point, and a key pair in the
same way around its number and its point. Both are read back as they were, and so is the id.

The reader of key pairs takes more structures than are written: `KeyPair.Form` says which ones, and
that each of them holds the number of the pair that is read from it (`KeyPair.ofPem_eq_ok_iff`).
-/

namespace DualSeal

/-! ## Points -/

namespace P256.Point

theorem mk?_eq (point : Point) : mk? point.x point.y = some point := dif_pos point.onCurve

theorem decode?_encode (point : Point) : decode? point.encode = some point := by
  have hp : p < 256 ^ width := by decide
  have hx := Bytes.toNat_ofNat_of_lt (Nat.lt_trans point.onCurve.1 hp)
  have hy := Bytes.toNat_ofNat_of_lt (Nat.lt_trans point.onCurve.2.1 hp)
  have hwidth := Bytes.length_ofNat width point.x
  rw [encode, decode?, if_pos rfl, List.take_left' hwidth, List.drop_left' hwidth, hx, hy,
    if_pos (by rw [List.length_append, hwidth, Bytes.length_ofNat]; rfl)]
  exact mk?_eq point

theorem length_compress (point : Point) : point.compress.length = 33 := by
  rw [compress, List.length_cons, Bytes.length_ofNat]
  rfl

end P256.Point

/-! ## Blocks -/

theorem readKeyBlock_encodeText {label : String} {body : Bytes}
    (hlabel : Pem.IsLabel (Bytes.ofAscii label))
    (hascii : ∀ b ∈ Bytes.ofAscii label, b.toNat < 0x80) (hbody : body ≠ []) :
    readKeyBlock label (Pem.encodeText label body) = .ok body := by
  have hbytes : Utf8.encodeString (Pem.encodeText label body)
      = Pem.encode (Bytes.ofAscii label) body :=
    Utf8.encodeString_toLatin fun _ hb ↦ Pem.ascii_of_mem_encode hascii hb
  rw [readKeyBlock, hbytes, Pem.decode_encode hlabel hbody]
  exact if_pos rfl

/-- The elements of the algorithm's identifier, together. -/
theorem KeyType.isPlain_algorithm :
    Der.Element.IsPlain ⟨Der.sequenceTag, KeyType.p256.algorithm⟩ where
  isTag := by decide
  length_lt := by decide

/-! ## Public keys -/

namespace PublicKey

/-- The structure of a public key around these bytes. -/
def structureOf (bytes : Bytes) : Bytes :=
  Der.writtenSequence [⟨Der.sequenceTag, KeyType.p256.algorithm⟩, ⟨Der.bitStringTag, 0 :: bytes⟩]

theorem toDer_eq (key : PublicKey) : key.toDer = structureOf key.bytes := by
  rw [toDer, structureOf, Der.writtenSequence, List.flatMap_cons, List.flatMap_singleton]
  rfl

theorem length_bytes (key : PublicKey) : key.bytes.length = 65 := key.point.length_encode

theorem sequence?_structureOf {bytes : Bytes} (h : bytes.length ≤ 65) :
    Der.sequence? (structureOf bytes) = some
      [⟨Der.sequenceTag, KeyType.p256.algorithm⟩, ⟨Der.bitStringTag, 0 :: bytes⟩] := by
  have hlimit : 200 < Der.lengthLimit := by decide
  have halgorithm : KeyType.p256.algorithm.length = 19 := by decide
  refine Der.sequence?_writtenSequence ?_ ?_
  · rw [List.forall_mem_cons, List.forall_mem_singleton]
    refine ⟨KeyType.isPlain_algorithm, ⟨rfl, ?_⟩⟩
    rw [List.length_cons]
    omega
  · refine Nat.lt_of_le_of_lt (Der.length_flatMap_written_le _) ?_
    simp only [List.map_cons, List.map_nil, List.sum_cons, List.sum_nil, List.length_cons,
      halgorithm]
    omega

theorem ofDer?_of_sequence? {der bytes : Bytes} {point : P256.Point}
    (helements : Der.sequence? der = some
      [⟨Der.sequenceTag, KeyType.p256.algorithm⟩, ⟨Der.bitStringTag, 0 :: bytes⟩])
    (hpoint : P256.Point.decode? bytes = some point) : ofDer? der = some ⟨point⟩ := by
  have hbits : Der.wholeBits? (0 :: bytes) = some bytes := rfl
  rw [ofDer?, helements, Option.bind_eq_bind, Option.bind_some]
  dsimp only
  rw [if_pos ⟨rfl, rfl⟩, hbits, Option.bind_eq_bind, Option.bind_some, hpoint]
  rfl

theorem ofDer?_toDer (key : PublicKey) : ofDer? key.toDer = some key := by
  rw [toDer_eq]
  exact ofDer?_of_sequence? (sequence?_structureOf key.length_bytes.le) key.point.decode?_encode

/-- **A text is read as a public key** exactly when the structure in its block is. -/
theorem ofPem_eq_ok_iff {text : String} {key : PublicKey} :
    ofPem text = .ok key ↔ ∃ der, readKeyBlock label text = .ok der ∧ ofDer? der = some key := by
  rw [ofPem]
  rcases readKeyBlock label text with fault | der
  · simp only [reduceCtorEq, false_and, exists_false]
  · simp only [Except.ok.injEq, exists_eq_left']
    rcases ofDer? der with _ | found <;> simp

/-- **A public key is read back from its text.** -/
theorem ofPem_toPem (key : PublicKey) : ofPem key.toPem = .ok key := by
  have hblock : readKeyBlock label key.toPem = .ok key.toDer :=
    readKeyBlock_encodeText (by decide +kernel) (by decide +kernel) (List.cons_ne_nil _ _)
  exact ofPem_eq_ok_iff.mpr ⟨_, hblock, key.ofDer?_toDer⟩

end PublicKey

/-! ## Key pairs -/

namespace KeyPair

theorem eq_of_secret_eq {a b : KeyPair} (h : a.secret = b.secret) : a = b := by
  obtain ⟨s, ⟨q⟩, _, _, ha⟩ := a
  obtain ⟨t, ⟨r⟩, _, _, hb⟩ := b
  obtain rfl : s = t := h
  obtain rfl : q = r := Option.some.inj (ha.symm.trans hb)
  rfl

theorem ofSecret?_secret (pair : KeyPair) : ofSecret? pair.secret = some pair := by
  rw [ofSecret?, dif_pos pair.secret_pos, dif_pos pair.secret_lt]
  split
  · exact congrArg some (eq_of_secret_eq rfl)
  · rename_i hnone
    rw [pair.public_eq] at hnone
    cases hnone

theorem ofSecret?_eq_some_iff {secret : Nat} {pair : KeyPair} :
    ofSecret? secret = some pair ↔ secret = pair.secret := by
  constructor
  · intro h
    rw [ofSecret?] at h
    split at h
    · split at h
      · split at h
        · rw [← Option.some.inj h]
        · cases h
      · cases h
    · cases h
  · rintro rfl
    exact pair.ofSecret?_secret

theorem ofSecretBytes?_eq_some_iff {number : Bytes} {pair : KeyPair} :
    ofSecretBytes? number = some pair
      ↔ (minSecretLength ≤ number.length ∧ number.length ≤ P256.width) ∧
        Bytes.toNat number = pair.secret := by
  rw [ofSecretBytes?]
  split_ifs with hlength
  · rw [ofSecret?_eq_some_iff, and_iff_right hlength]
  · exact ⟨nofun, fun h ↦ absurd h.1 hlength⟩

theorem length_secretBytes (pair : KeyPair) : pair.secretBytes.length = 32 :=
  Bytes.length_ofNat _ _

theorem toNat_secretBytes (pair : KeyPair) : Bytes.toNat pair.secretBytes = pair.secret := by
  have hn : P256.n < 256 ^ P256.width := by decide
  exact Bytes.toNat_ofNat_of_lt (Nat.lt_trans pair.secret_lt hn)

/-! ### Accepted structures -/

/-- What may stand behind the number of a key pair: parameters, attributes, and the public key of
the pair, uncompressed or compressed. Each of them may be missing. -/
inductive Tail (pair : KeyPair) (tail : List Der.Element) : Prop where
  | unkeyed {rest : List Der.Element} (parameters : dropParameters? tail = some rest)
    (attributes : rest.dropWhile (isContext 0) = [])
  | keyed {rest : List Der.Element} {point : Bytes} (parameters : dropParameters? tail = some rest)
    (attributes : rest.dropWhile (isContext 0)
      = [⟨Der.contextTag 1, Der.encode Der.bitStringTag (0 :: point)⟩])
    (point_eq : point = pair.publicKey.point.encode ∨ point = pair.publicKey.point.compress)

/-- The inner structures of a key pair. The number takes 24 to 32 bytes. -/
inductive InnerForm (pair : KeyPair) (der : Bytes) : Prop where
  | mk {number : Bytes} {tail : List Der.Element}
    (elements : Der.sequence? der
      = some (⟨Der.integerTag, [1]⟩ :: ⟨Der.octetStringTag, number⟩ :: tail))
    (length : minSecretLength ≤ number.length ∧ number.length ≤ P256.width)
    (secret : Bytes.toNat number = pair.secret) (behind : pair.Tail tail)

/-- The structures of a key pair, of version 0 or 1. -/
inductive Form (pair : KeyPair) (der : Bytes) : Prop where
  | mk {version : UInt8} {inner : Bytes} {options : List Der.Element}
    (elements : Der.sequence? der
      = some (⟨Der.integerTag, [version]⟩ :: ⟨Der.sequenceTag, KeyType.p256.algorithm⟩ ::
        ⟨Der.octetStringTag, inner⟩ :: options))
    (version_eq : version = 0 ∨ version = 1)
    (options_ok : areOptions (version = 1) options) (innerForm : pair.InnerForm inner)

theorem unwrap?_bitString {point : P256.Point} {bytes : Bytes}
    (h : bytes = point.encode ∨ bytes = point.compress) :
    Der.unwrap? Der.bitStringTag (Der.encode Der.bitStringTag (0 :: bytes))
      = some (0 :: bytes) := by
  have hlength : bytes.length ≤ 65 := by
    rcases h with rfl | rfl
    · exact point.length_encode.le
    · rw [point.length_compress]
      decide
  refine Der.unwrap?_encode rfl ?_
  rw [List.length_cons]
  exact Nat.lt_of_le_of_lt (Nat.succ_le_succ hlength) (by decide)

namespace InnerForm

variable {der : Bytes} {pair : KeyPair}

theorem of_ofInnerDer? (h : ofInnerDer? der = some pair) : pair.InnerForm der := by
  rw [KeyPair.ofInnerDer?] at h
  obtain ⟨elements, helements, h⟩ := Option.bind_eq_some_iff.mp h
  split at h
  · rename_i version secret tail
    split at h
    · rename_i hhead
      obtain ⟨rest, hrest, h⟩ := Option.bind_eq_some_iff.mp h
      obtain ⟨found, hfound, h⟩ := Option.bind_eq_some_iff.mp h
      obtain ⟨hlength, hnumber⟩ := ofSecretBytes?_eq_some_iff.mp hfound
      have hsecret : secret = ⟨Der.octetStringTag, secret.content⟩ := by
        rw [← hhead.2]
      rw [hhead.1, hsecret] at helements
      have hform : found.Tail tail → found.InnerForm der := .mk helements hlength hnumber
      -- What is behind the attributes: nothing, one element, or too much.
      split at h
      · rename_i hnone
        obtain rfl := Option.some.inj h
        exact hform (.unkeyed hrest hnone)
      · rename_i element hone
        split at h
        · rename_i htag
          obtain ⟨content, hcontent, h⟩ := Option.bind_eq_some_iff.mp h
          obtain ⟨point, hpoint, h⟩ := Option.bind_eq_some_iff.mp h
          split at h
          · rename_i heq
            obtain rfl := Option.some.inj h
            refine hform (.keyed hrest ?_ heq)
            rw [hone, ← Der.eq_of_wholeBits? hpoint, ← Der.eq_of_unwrap? hcontent, ← htag]
          · cases h
        · cases h
      · cases h
    · cases h
  · cases h

theorem ofInnerDer? (h : pair.InnerForm der) : ofInnerDer? der = some pair := by
  obtain ⟨helements, hlength, hsecret, ⟨hrest, hnone⟩ | ⟨hrest, hone, hpoint⟩⟩ := h
  all_goals
    have hnumber := ofSecretBytes?_eq_some_iff.mpr ⟨hlength, hsecret⟩
    rw [KeyPair.ofInnerDer?, helements, Option.bind_eq_bind, Option.bind_some]
    dsimp only
    rw [if_pos ⟨rfl, rfl⟩, hrest, Option.bind_eq_bind, Option.bind_some, hnumber,
      Option.bind_eq_bind, Option.bind_some]
  case unkeyed =>
    rw [hnone]
    rfl
  case keyed rest point =>
    have hwhole : Der.wholeBits? (0 :: point) = some point := rfl
    rw [hone]
    dsimp only
    rw [if_pos rfl, unwrap?_bitString hpoint, Option.bind_some, hwhole, Option.bind_some,
      if_pos hpoint]
    rfl

end InnerForm

/-- **A structure is read as a key pair** exactly when it is one of that pair's. -/
theorem ofDer?_eq_some_iff {der : Bytes} {pair : KeyPair} :
    ofDer? der = some pair ↔ pair.Form der := by
  constructor
  · intro h
    rw [ofDer?] at h
    obtain ⟨elements, helements, h⟩ := Option.bind_eq_some_iff.mp h
    split at h
    · rename_i version algorithm inner options
      split at h
      · rename_i hhead
        obtain ⟨hversion, halgorithm, htag, hoptions⟩ := hhead
        have hinner : inner = ⟨Der.octetStringTag, inner.content⟩ := by
          rw [← htag]
        rw [halgorithm, hinner] at helements
        rcases hversion with rfl | rfl
        · exact .mk helements (.inl rfl) hoptions (.of_ofInnerDer? h)
        · exact .mk helements (.inr rfl) hoptions (.of_ofInnerDer? h)
      · cases h
    · cases h
  · rintro ⟨helements, hversion, hoptions, hinner⟩
    rw [ofDer?, helements, Option.bind_eq_bind, Option.bind_some]
    dsimp only
    rw [if_pos ?_, hinner.ofInnerDer?]
    rcases hversion with rfl | rfl
    · exact ⟨.inl rfl, rfl, rfl, hoptions⟩
    · exact ⟨.inr rfl, rfl, rfl, hoptions⟩

/-- **A text is read as a key pair** exactly when there is a structure of that pair in its block. -/
theorem ofPem_eq_ok_iff {text : String} {pair : KeyPair} :
    ofPem text = .ok pair ↔ ∃ der, readKeyBlock label text = .ok der ∧ pair.Form der := by
  simp only [← ofDer?_eq_some_iff]
  rw [ofPem]
  rcases readKeyBlock label text with fault | der
  · simp only [reduceCtorEq, false_and, exists_false]
  · simp only [Except.ok.injEq, exists_eq_left']
    rcases ofDer? der with _ | found <;> simp

/-! ### The structure that is written -/

/-- The elements of the inner structure. -/
def innerElements (pair : KeyPair) : List Der.Element :=
  [⟨Der.integerTag, [1]⟩, ⟨Der.octetStringTag, pair.secretBytes⟩,
    ⟨Der.contextTag 1, Der.encode Der.bitStringTag (0 :: pair.publicKey.bytes)⟩]

/-- The elements of the outer structure. -/
def elements (pair : KeyPair) : List Der.Element :=
  [⟨Der.integerTag, [0]⟩, ⟨Der.sequenceTag, KeyType.p256.algorithm⟩,
    ⟨Der.octetStringTag, pair.innerDer⟩]

theorem innerDer_eq (pair : KeyPair) : pair.innerDer = Der.writtenSequence pair.innerElements := by
  simp only [innerDer, Der.writtenSequence, innerElements, List.flatMap_cons, List.flatMap_nil,
    Der.Element.written, List.append_assoc, List.append_nil]

theorem toDer_eq (pair : KeyPair) : pair.toDer = Der.writtenSequence pair.elements := by
  simp only [toDer, Der.writtenSequence, elements, List.flatMap_cons, List.flatMap_nil,
    Der.Element.written, List.append_assoc, List.append_nil, type]

theorem length_innerElements_le (pair : KeyPair) :
    (pair.innerElements.flatMap Der.Element.written).length ≤ 123 := by
  have hbits := Der.length_encode_le Der.bitStringTag (0 :: pair.publicKey.bytes)
  have hlength := Der.length_flatMap_written_le pair.innerElements
  simp only [innerElements, List.map_cons, List.map_nil, List.sum_cons, List.sum_nil,
    List.length_cons, List.length_nil, pair.length_secretBytes, pair.publicKey.length_bytes]
    at hbits hlength ⊢
  omega

theorem length_innerDer_le (pair : KeyPair) : pair.innerDer.length ≤ 129 := by
  have hlength := Der.length_encode_le Der.sequenceTag
    (pair.innerElements.flatMap Der.Element.written)
  rw [innerDer_eq]
  exact hlength.trans (Nat.add_le_add_right pair.length_innerElements_le 6)

theorem sequence?_innerDer (pair : KeyPair) :
    Der.sequence? pair.innerDer = some pair.innerElements := by
  rw [innerDer_eq]
  refine Der.sequence?_writtenSequence ?_
    (Nat.lt_of_le_of_lt pair.length_innerElements_le (by decide))
  have hcontext : Der.isTag (Der.contextTag 1) = true := by decide
  have hbits := Der.length_encode_le Der.bitStringTag (0 :: pair.publicKey.bytes)
  rw [List.length_cons, pair.publicKey.length_bytes] at hbits
  rw [innerElements, List.forall_mem_cons, List.forall_mem_cons, List.forall_mem_singleton]
  refine ⟨⟨rfl, by decide⟩, ⟨rfl, ?_⟩, ⟨hcontext, Nat.lt_of_le_of_lt hbits (by decide)⟩⟩
  rw [pair.length_secretBytes]
  decide

theorem sequence?_toDer (pair : KeyPair) : Der.sequence? pair.toDer = some pair.elements := by
  rw [toDer_eq]
  refine Der.sequence?_writtenSequence ?_ ?_
  · rw [elements, List.forall_mem_cons, List.forall_mem_cons, List.forall_mem_singleton]
    exact ⟨⟨rfl, by decide⟩, KeyType.isPlain_algorithm,
      ⟨rfl, Nat.lt_of_le_of_lt pair.length_innerDer_le (by decide)⟩⟩
  · have hlength := Der.length_flatMap_written_le pair.elements
    have hinner := pair.length_innerDer_le
    have halgorithm : KeyType.p256.algorithm.length = 19 := by decide
    simp only [elements, List.map_cons, List.map_nil, List.sum_cons, List.sum_nil,
      List.length_cons, List.length_nil, halgorithm] at hlength ⊢
    have hlimit : 300 < Der.lengthLimit := by decide
    omega

theorem innerForm_innerDer (pair : KeyPair) : pair.InnerForm pair.innerDer := by
  have hcontext : Der.contextNumber (Der.contextTag 1) = 1 := by decide
  have hlength : minSecretLength ≤ pair.secretBytes.length ∧
      pair.secretBytes.length ≤ P256.width := by
    rw [pair.length_secretBytes]
    decide
  refine .mk pair.sequence?_innerDer hlength pair.toNat_secretBytes
    (.keyed (if_neg ?_) ?_ (.inl rfl))
  · exact fun h ↦ absurd (hcontext.symm.trans h.2) (by decide)
  · simp [isContext, hcontext, PublicKey.bytes]

theorem form_toDer (pair : KeyPair) : pair.Form pair.toDer :=
  .mk pair.sequence?_toDer (.inl rfl) rfl pair.innerForm_innerDer

/-- **A key pair is read back from its text.** -/
theorem ofPem_toPem (pair : KeyPair) : ofPem pair.toPem = .ok pair := by
  have hblock : readKeyBlock label pair.toPem = .ok pair.toDer :=
    readKeyBlock_encodeText (by decide +kernel) (by decide +kernel) (List.cons_ne_nil _ _)
  exact ofPem_eq_ok_iff.mpr ⟨_, hblock, pair.form_toDer⟩

end KeyPair

end DualSeal

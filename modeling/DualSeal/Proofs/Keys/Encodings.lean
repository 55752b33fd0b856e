import DualSeal.Proofs.Crypto.Points
import DualSeal.Proofs.Envelope.RoundTrip
import DualSeal.Proofs.Keys.Store

/-!
# One key for every encoding

A public key comes as bytes or as a text, and in either the point may be in any of its forms. A
source is read as a key exactly when it encodes the key's point (`KeySource.read_eq_ok_iff`): bytes
that are a form of it, or a text whose block holds such bytes in the structure of a public key,
which has one spelling only. So all sources of a point give the same key, and with it the same text
and the same id (`KeySource.one_key_per_point`).
-/

namespace DualSeal

/-! ## Structures -/

namespace PublicKey

theorem length_le_of_form {point : P256.Point} {bytes : Bytes} (h : point.Form bytes) :
    bytes.length ≤ 65 := by
  cases h with
  | uncompressed => exact point.length_encode.le
  | compressed =>
    rw [point.length_compress]
    decide
  | compact =>
    rw [List.length_cons, Bytes.length_ofNat]
    decide

/-- A structure is read as the key whose point it holds a form of. -/
theorem ofDer?_eq_some_iff {der : Bytes} {key : PublicKey} :
    ofDer? der = some key ↔ ∃ bytes, der = structureOf bytes ∧ key.point.Form bytes := by
  constructor
  · intro h
    rw [ofDer?] at h
    obtain ⟨elements, helements, h⟩ := Option.bind_eq_some_iff.mp h
    split at h
    · rename_i algorithm bits
      split at h
      · rename_i htags
        obtain ⟨bytes, hbytes, h⟩ := Option.bind_eq_some_iff.mp h
        obtain ⟨point, hpoint, h⟩ := Option.bind_eq_some_iff.mp h
        obtain rfl := Option.some.inj h
        have hbits : bits = ⟨Der.bitStringTag, 0 :: bytes⟩ := by
          rw [← htags.2, ← Der.eq_of_wholeBits? hbytes]
        rw [htags.1, hbits] at helements
        exact ⟨bytes, Der.eq_of_sequence? helements, P256.Point.decode?_eq_some_iff.mp hpoint⟩
      · cases h
    · cases h
  · rintro ⟨bytes, rfl, hform⟩
    exact ofDer?_of_sequence? (sequence?_structureOf (length_le_of_form hform))
      (P256.Point.decode?_eq_some_iff.mpr hform)

/-- **A public key is read back from its stored form.** -/
theorem ofBytes_bytes (key : PublicKey) : ofBytes key.bytes = .ok key := by
  rw [ofBytes, bytes, P256.Point.decode?_encode]

end PublicKey

/-! ## Sources -/

/-- What a public key is read from: bytes, or a text. -/
inductive KeySource where
  | sec1 (bytes : Bytes)
  | pem (text : String)

namespace KeySource

def read : KeySource → Except KeyError PublicKey
  | sec1 bytes => PublicKey.ofBytes bytes
  | pem text => PublicKey.ofPem text

/-- Bytes encode the point that they are a form of, and so does a text with such bytes in its
block. -/
inductive Encodes : KeySource → P256.Point → Prop where
  | sec1 {bytes : Bytes} {point : P256.Point} (h : point.Form bytes) : Encodes (sec1 bytes) point
  | pem {text : String} {bytes : Bytes} {point : P256.Point}
    (hblock : readKeyBlock PublicKey.label text = .ok (PublicKey.structureOf bytes))
    (h : point.Form bytes) : Encodes (pem text) point

/-- **Reading a public key.** A source is read as a key exactly when it encodes the key's point. -/
theorem read_eq_ok_iff {source : KeySource} {key : PublicKey} :
    source.read = .ok key ↔ source.Encodes key.point := by
  cases source with
  | sec1 bytes =>
    have hread : (sec1 bytes).read = .ok key ↔ P256.Point.decode? bytes = some key.point := by
      rw [read, PublicKey.ofBytes]
      cases P256.Point.decode? bytes with
      | none => simp only [reduceCtorEq]
      | some point =>
        dsimp only
        rw [Except.ok.injEq, Option.some.injEq]
        exact ⟨fun h ↦ h ▸ rfl, fun h ↦ h ▸ rfl⟩
    rw [hread, P256.Point.decode?_eq_some_iff]
    exact ⟨.sec1, fun h ↦ by cases h; assumption⟩
  | pem text =>
    rw [read, PublicKey.ofPem_eq_ok_iff]
    constructor
    · rintro ⟨der, hblock, hder⟩
      obtain ⟨bytes, rfl, hform⟩ := PublicKey.ofDer?_eq_some_iff.mp hder
      exact .pem hblock hform
    · intro h
      cases h with
      | pem hblock hform => exact ⟨_, hblock, PublicKey.ofDer?_eq_some_iff.mpr ⟨_, rfl, hform⟩⟩

/-- A point is all that a source says of a key. -/
theorem eq_of_encodes {source source' : KeySource} {point : P256.Point} {key key' : PublicKey}
    (h : source.Encodes point) (h' : source'.Encodes point) (hkey : source.read = .ok key)
    (hkey' : source'.read = .ok key') : key = key' := by
  have hpoint : source.read = .ok ⟨point⟩ := read_eq_ok_iff.mpr h
  have hpoint' : source'.read = .ok ⟨point⟩ := read_eq_ok_iff.mpr h'
  rw [Except.ok.inj (hkey.symm.trans hpoint), Except.ok.inj (hkey'.symm.trans hpoint')]

end KeySource

/-! ## Ids -/

namespace KeyId

theorem isLowerHex_of_mem_fingerprint {key : Bytes} {c : Char}
    (h : c ∈ (fingerprint key).text.toList) : ('0' ≤ c ∧ c ≤ '9') ∨ ('a' ≤ c ∧ c ≤ 'f') := by
  have hdigits : ∀ n < 16, ('0' ≤ Hex.digit n ∧ Hex.digit n ≤ '9') ∨
      ('a' ≤ Hex.digit n ∧ Hex.digit n ≤ 'f') := by
    decide
  obtain ⟨n, hn, rfl⟩ := eq_digit_of_mem_fingerprint h
  exact hdigits n hn

end KeyId

namespace KeyStore

variable {dir : Path} {kind : KeyKind} {id : KeyId}

theorem directory_put_ne_invalidKeyId (h : id.fileFault? = none) (text : String) (tree : FileTree)
    (fault : KeyIdFault) :
    (directory dir).put kind id text tree ≠ .error (.invalidKeyId fault) := by
  dsimp only [directory]
  rw [KeyKind.path_eq_ok_iff.mpr ⟨h, rfl⟩, ok_bind]
  rcases tree.replace (dir.child (kind.fileName id)) (Utf8.encodeString text) with _ | _
  all_goals exact nofun

theorem directory_get_ne_invalidKeyId (h : id.fileFault? = none) (tree : FileTree)
    (fault : KeyIdFault) :
    (directory dir).get kind id tree ≠ .error (.invalidKeyId fault) := by
  rw [directory_get_of_fileFault? h]
  split <;> exact nofun

end KeyStore

/-! ## One key -/

namespace KeySource

/-- **One key per point.** A source is read as a key exactly when it encodes the key's point. A key
is stored as the uncompressed point, and read back from its stored form and from its text, which
its stored form is enough to write. Sources that encode one point give the same key, and so the same
text and the same id. An id consists of thirty-two lower-case hexadecimal digits; no delimiter is
among them, and no directory refuses it. -/
theorem one_key_per_point :
    (∀ (source : KeySource) (key : PublicKey),
      source.read = .ok key ↔ source.Encodes key.point) ∧
    (∀ key : PublicKey,
      key.bytes = 0x04 :: (Bytes.ofNat 32 key.point.x ++ Bytes.ofNat 32 key.point.y) ∧
      key.bytes.length = 65 ∧
      PublicKey.toPem <$> PublicKey.ofBytes key.bytes = .ok key.toPem ∧
      PublicKey.ofPem key.toPem = .ok key ∧ PublicKey.ofBytes key.bytes = .ok key) ∧
    (∀ (point : P256.Point) (source source' : KeySource) (key key' : PublicKey),
      source.Encodes point → source'.Encodes point →
      source.read = .ok key → source'.read = .ok key' →
      key = key' ∧ key.toPem = key'.toPem ∧ key.id = key'.id) ∧
    ∀ key : PublicKey,
      key.id.text.toList.length = 32 ∧
      (∀ c ∈ key.id.text.toList, ('0' ≤ c ∧ c ≤ '9') ∨ ('a' ≤ c ∧ c ≤ 'f')) ∧
      IsField key.id.text ∧
      ∀ (dir : Path) (kind : KeyKind) (text : String) (tree : FileTree) (fault : KeyIdFault),
        (KeyStore.directory dir).put kind key.id text tree ≠ .error (.invalidKeyId fault) ∧
        (KeyStore.directory dir).get kind key.id tree ≠ .error (.invalidKeyId fault) := by
  refine ⟨fun _ _ ↦ read_eq_ok_iff, fun key ↦ ?_, ?_, fun key ↦ ?_⟩
  · refine ⟨rfl, key.length_bytes, ?_, key.ofPem_toPem, key.ofBytes_bytes⟩
    rw [key.ofBytes_bytes]
    rfl
  · rintro point source source' key key' h h' hkey hkey'
    obtain rfl := eq_of_encodes h h' hkey hkey'
    exact ⟨rfl, rfl, rfl⟩
  · have hfault : key.id.fileFault? = none := KeyId.fileFault?_fingerprint key.bytes
    exact ⟨KeyId.length_fingerprint _, fun _ ↦ KeyId.isLowerHex_of_mem_fingerprint,
      Envelope.isField_fingerprint _, fun dir kind text tree fault ↦
        ⟨KeyStore.directory_put_ne_invalidKeyId hfault text tree fault,
          KeyStore.directory_get_ne_invalidKeyId hfault tree fault⟩⟩

/-- The base point in its compressed form, and in a text in its compact form. -/
theorem one_key_per_point_base :
    let compact := (0x05 :: Bytes.ofNat 32 P256.base.x : Bytes)
    let text := Pem.encodeText PublicKey.label (PublicKey.structureOf compact)
    (sec1 (0x03 :: Bytes.ofNat 32 P256.base.x)).read = .ok KeyPair.one.publicKey ∧
      (pem text).read = .ok KeyPair.one.publicKey ∧
      ∀ key key', (sec1 compact).read = .ok key → (pem text).read = .ok key' →
        key.id = key'.id := by
  intro compact text
  have hcompress : P256.base.compress = 0x03 :: Bytes.ofNat 32 P256.base.x := by
    rw [P256.Point.compress, if_neg (by decide +kernel)]
    rfl
  have hcompact : P256.base.Form compact := .compact (by decide +kernel)
  have hblock : readKeyBlock PublicKey.label text = .ok (PublicKey.structureOf compact) :=
    readKeyBlock_encodeText (by decide +kernel) (by decide +kernel) (List.cons_ne_nil _ _)
  obtain ⟨hread, -, hsame, -⟩ := one_key_per_point
  refine ⟨?_, (hread (pem text) KeyPair.one.publicKey).mpr (.pem hblock hcompact), ?_⟩
  · rw [← hcompress]
    exact (hread (sec1 P256.base.compress) KeyPair.one.publicKey).mpr (.sec1 .compressed)
  · intro key key' h h'
    exact (hsame P256.base (sec1 compact) (pem text) key key' (.sec1 hcompact)
      (.pem hblock hcompact) h h').2.2

end KeySource

end DualSeal

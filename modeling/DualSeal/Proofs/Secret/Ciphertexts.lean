import DualSeal.Proofs.Secret.Grammar

/-!
# One text for a list of ciphertexts

Ciphertexts are armoured one by one, each addressed to the key of its id, and joined to the simple
form. Two codecs are nested here, and neither leaves a choice: a ciphertext has one value, and a
secret has one simple form. Since a value has no delimiter in it and is empty only for the empty
ciphertext, the texts that can be read down to the ciphertexts are exactly those that were written
from them (`readCiphertexts_eq_ok_iff`).
-/

namespace DualSeal.Secret

/-- The secret that holds these ciphertexts, each as a shard for the key of its id. -/
def ofCiphertexts (items : List (KeyId × Bytes)) : Secret :=
  ⟨items.map fun item ↦ ⟨item.1, Shard.encodeValue item.2⟩⟩

/-- The ciphertexts of a secret, each with the id of its key. -/
def ciphertexts (secret : Secret) : Except WireError (List (KeyId × Bytes)) :=
  secret.shards.mapM fun shard ↦ (shard.keyId, ·) <$> shard.ciphertext

/-- The text that ciphertexts are written as. -/
def writeCiphertexts (items : List (KeyId × Bytes)) : String := (ofCiphertexts items).encodeSimple

/-- Reads a text down to the ciphertexts. -/
def readCiphertexts (text : String) : Except WireError (List (KeyId × Bytes)) := do
  (← decodeSimple text).ciphertexts

/-- Ciphertexts that can be written: there are some, none of them is empty, and their ids are
different and can stand as ids. -/
structure AreAddressed (items : List (KeyId × Bytes)) : Prop where
  ne_nil : items ≠ []
  nodup : (items.map Prod.fst).Nodup
  keyIds : ∀ item ∈ items, IsField item.1.text
  ciphertexts : ∀ item ∈ items, item.2 ≠ []

variable {secret : Secret} {items : List (KeyId × Bytes)}

/-- **One secret for ciphertexts.** A secret has these ciphertexts exactly when it was made of
them. -/
theorem ciphertexts_eq_ok_iff : secret.ciphertexts = .ok items ↔ secret = ofCiphertexts items := by
  have hshard : ∀ (shard : Shard) (item : KeyId × Bytes),
      (shard.keyId, ·) <$> shard.ciphertext = .ok item
        ↔ shard = ⟨item.1, Shard.encodeValue item.2⟩ := by
    intro shard item
    rw [map_eq_ok_iff]
    constructor
    · rintro ⟨bytes, hbytes, rfl⟩
      rw [← Shard.ciphertext_eq_ok_iff.mp hbytes]
    · rintro rfl
      exact ⟨item.2, Shard.ciphertext_eq_ok_iff.mpr rfl, rfl⟩
  obtain ⟨shards⟩ := secret
  rw [ciphertexts, mapM_eq_ok_iff, ofCiphertexts, Secret.mk.injEq, ← List.forall₂_eq_eq_eq,
    List.forall₂_map_right_iff]
  simp only [hshard]

/-- A value is empty only for the empty ciphertext, so all that matters are the ids and that no
ciphertext is empty. -/
theorem wellFormed_ofCiphertexts_iff : (ofCiphertexts items).WellFormed ↔ AreAddressed items := by
  have hkeyIds : (ofCiphertexts items).keyIds = items.map Prod.fst := by
    rw [keyIds, ofCiphertexts, List.map_map]
    rfl
  have hne : (ofCiphertexts items).shards ≠ [] ↔ items ≠ [] := by
    rw [ofCiphertexts, ne_eq, List.map_eq_nil_iff]
  constructor
  · intro h
    have hshards := List.forall_mem_map.mp h.shards
    refine ⟨hne.mp h.ne_nil, hkeyIds ▸ h.nodup, fun item hitem ↦ (hshards item hitem).keyId, ?_⟩
    intro item hitem hnil
    have hvalue := (hshards item hitem).value.ne_nil
    rw [hnil] at hvalue
    exact hvalue rfl
  · intro h
    refine ⟨hne.mpr h.ne_nil, List.forall_mem_map.mpr fun item hitem ↦ ?_, hkeyIds ▸ h.nodup⟩
    exact ⟨h.keyIds item hitem, isField_encodeValue (h.ciphertexts item hitem)⟩

/-- **Reading ciphertexts.** A text is read as these ciphertexts exactly when it is what they are
written as, and they can be written. -/
theorem readCiphertexts_eq_ok_iff {text : String} :
    readCiphertexts text = .ok items ↔ AreAddressed items ∧ text = writeCiphertexts items := by
  rw [readCiphertexts, bind_eq_ok_iff]
  constructor
  · rintro ⟨secret, htext, hitems⟩
    obtain rfl := ciphertexts_eq_ok_iff.mp hitems
    obtain ⟨hwell, rfl⟩ := decodeSimple_eq_ok_iff.mp htext
    exact ⟨wellFormed_ofCiphertexts_iff.mp hwell, rfl⟩
  · rintro ⟨haddressed, rfl⟩
    exact ⟨ofCiphertexts items,
      decodeSimple_eq_ok_iff.mpr ⟨wellFormed_ofCiphertexts_iff.mpr haddressed, rfl⟩,
      ciphertexts_eq_ok_iff.mpr rfl⟩

/-- Where every shard's value spells a ciphertext, the secret has ciphertexts. -/
theorem exists_ciphertexts_eq_ok
    (h : ∀ shard ∈ secret.shards, ∃ bytes, shard.ciphertext = .ok bytes) :
    ∃ items, secret.ciphertexts = .ok items := by
  obtain ⟨shards⟩ := secret
  simp only [ciphertexts, mapM_eq_ok_iff]
  induction shards with
  | nil => exact ⟨[], .nil⟩
  | cons shard shards ih =>
    obtain ⟨⟨bytes, hbytes⟩, hshards⟩ := List.forall_mem_cons.mp h
    obtain ⟨items, hitems⟩ := ih hshards
    exact ⟨(shard.keyId, bytes) :: items, .cons (map_eq_ok_iff.mpr ⟨bytes, hbytes, rfl⟩) hitems⟩

/-- **A bijection.** Ciphertexts under different ids that can be written are read back from their
text. A text that is read as a secret, and whose values all spell ciphertexts, holds ciphertexts
that can be written, and is what they are written as. So no two texts are read as the same ids and
ciphertexts. -/
theorem ciphertexts_correspond_to_texts :
    (∀ items, AreAddressed items → readCiphertexts (writeCiphertexts items) = .ok items) ∧
    (∀ text secret, decodeSimple text = .ok secret →
      (∀ shard ∈ secret.shards, ∃ bytes, shard.ciphertext = .ok bytes) →
      ∃ items, secret.ciphertexts = .ok items ∧ AreAddressed items ∧
        writeCiphertexts items = text) ∧
    ∀ text text' items, readCiphertexts text = .ok items → readCiphertexts text' = .ok items →
      text = text' := by
  refine ⟨fun items h ↦ readCiphertexts_eq_ok_iff.mpr ⟨h, rfl⟩, fun text secret htext hvalues ↦ ?_,
    fun text text' items h h' ↦ ?_⟩
  · obtain ⟨items, hitems⟩ := exists_ciphertexts_eq_ok hvalues
    have hread : readCiphertexts text = .ok items :=
      bind_eq_ok_iff.mpr ⟨secret, htext, hitems⟩
    obtain ⟨haddressed, heq⟩ := readCiphertexts_eq_ok_iff.mp hread
    exact ⟨items, hitems, haddressed, heq.symm⟩
  · rw [(readCiphertexts_eq_ok_iff.mp h).2, (readCiphertexts_eq_ok_iff.mp h').2]

/-- Ciphertexts of three bytes, two bytes and one, so that the values end without padding, with one
sign and with two. -/
theorem ciphertexts_correspond_to_texts_padded :
    let items : List (KeyId × Bytes) :=
      [(⟨"shared"⟩, [0xfb, 0xff, 0x00]), (⟨"alice"⟩, [0x61, 0x62]), (⟨"bob"⟩, [0x63])]
    let text := "shared(+/8A)-alice(YWI=)-bob(Yw==)"
    readCiphertexts (writeCiphertexts items) = .ok items ∧
      (∃ found, (ofCiphertexts items).ciphertexts = .ok found ∧ AreAddressed found ∧
        writeCiphertexts found = text) ∧
      ∀ other, readCiphertexts other = .ok items → other = text := by
  intro items text
  have haddressed : AreAddressed items := by
    refine ⟨List.cons_ne_nil _ _, by decide, ?_, by decide⟩
    simp only [items, List.forall_mem_cons, List.not_mem_nil, false_imp_iff, implies_true, and_true]
    refine ⟨?_, ?_, ?_⟩
    all_goals constructor <;> decide
  have htext : text = (ofCiphertexts items).encodeSimple := by decide +kernel
  have hdecode : decodeSimple text = .ok (ofCiphertexts items) :=
    decodeSimple_eq_ok_iff.mpr ⟨wellFormed_ofCiphertexts_iff.mpr haddressed, htext⟩
  have hvalues : ∀ shard ∈ (ofCiphertexts items).shards, ∃ bytes, shard.ciphertext = .ok bytes :=
    List.forall_mem_map.mpr fun item _ ↦ ⟨item.2, Shard.ciphertext_eq_ok_iff.mpr rfl⟩
  obtain ⟨hwritten, hread, hone⟩ := ciphertexts_correspond_to_texts
  have hback : readCiphertexts text = .ok items := htext ▸ hwritten items haddressed
  exact ⟨hwritten items haddressed, hread text _ hdecode hvalues,
    fun other hother ↦ hone other text items hother hback⟩

end DualSeal.Secret

import DualSeal.Project.Secrets
import DualSeal.Proofs.Envelope.Decryption
import Mathlib.Data.List.Sort
import Mathlib.Data.String.Basic

/-!
# Changes of a project

What each change makes of a project when it succeeds. A rotation renews every text: it reads the
secret and encrypts it anew, under the same name. With a mediator whose calls do nothing besides, it
is a function of the project (`rotated_ofOutcome`) that succeeds exactly when every text can be
renewed (`reencryptWith_of_renews`, `renews_of_reencryptWith`).
-/

namespace DualSeal

/-! ## Names -/

namespace NamedTexts

theorem pairwise_names (table : NamedTexts) : table.names.Pairwise (· < ·) :=
  List.pairwise_map.mpr table.sorted

theorem mem_names {table : NamedTexts} {name : String} :
    name ∈ table.names ↔ table.get? name ≠ none := by
  rw [names, get?, List.mem_map, Ne, List.lookup_eq_none_iff]
  constructor
  · rintro ⟨entry, hentry, rfl⟩ hnone
    exact absurd (hnone entry hentry) (by simp)
  · intro h
    by_contra hnone
    refine h fun entry hentry ↦ bne_iff_ne.mpr fun heq ↦ ?_
    exact hnone ⟨entry, hentry, heq.symm⟩

theorem exists_getElem?_of_lookup {entries : List (String × String)} {name text : String}
    (h : entries.lookup name = some text) : ∃ k : Nat, entries[k]? = some (name, text) := by
  obtain ⟨before, after, hentries, -⟩ := List.lookup_eq_some_iff.mp h
  exact ⟨before.length, by simp [hentries]⟩

theorem get?_of_mem {table : NamedTexts} {entry : String × String} (h : entry ∈ table.entries) :
    table.get? entry.1 = some entry.2 := by
  obtain ⟨before, behind, hentries⟩ := List.append_of_mem h
  refine List.lookup_eq_some_iff.mpr ⟨before, behind, hentries, fun other hother ↦ ?_⟩
  have hsorted := table.sorted
  rw [NameSorted, hentries] at hsorted
  exact bne_iff_ne.mpr
    (ne_of_gt ((List.pairwise_append.mp hsorted).2.2 other hother entry List.mem_cons_self))

/-- The names of a table are those that it has texts under, in order. -/
theorem names_eq_iff {left right : NamedTexts} :
    left.names = right.names ↔ ∀ name, left.get? name = none ↔ right.get? name = none := by
  constructor
  · intro h name
    rw [← not_iff_not, ← Ne, ← mem_names, h, mem_names]
  · intro h
    refine left.pairwise_names.eq_of_mem_iff right.pairwise_names fun name ↦ ?_
    rw [mem_names, mem_names, Ne, h]

end NamedTexts

/-! ## Contexts without effects -/

/-- A context whose mediator's calls, if there is a mediator, do nothing but end like this. -/
def DecryptContext.ofOutcome {m : Type → Type} [Monad m] (requester : Option KeyPair)
    (outcome : Option (MediatorRequest → MediatorOutcome)) (timeout : Milliseconds) :
    DecryptContext m :=
  ⟨requester, outcome.map Mediator.ofOutcome, timeout⟩

namespace Project

variable {project rotated : Project} {envelope : Envelope} {lookup : KeyLookup}
  {requester : Option KeyPair} {outcome : Option (MediatorRequest → MediatorOutcome)}
  {timeout : Milliseconds}

/-! ## Recipients -/

theorem mem_recipientKeyIds {id : KeyId} :
    id ∈ project.recipientKeyIds ↔ id ∈ project.memberKeyIds ++ project.serviceKeyIds := by
  rw [recipientKeyIds, mem_firstOccurrences]
  exact ⟨And.left, fun h ↦ ⟨h, List.not_mem_nil⟩⟩

/-! ## One secret -/

theorem withSecret_eq_ok_iff {entropy : EntropySource} {name plaintext : String}
    {format : WireFormat} {changed : Project} :
    project.withSecret envelope entropy name plaintext format lookup = .ok changed
      ↔ ∃ encoded, envelope.encryptSecret entropy
          ⟨plaintext, project.sharedKeyId, project.recipientKeyIds, format⟩ lookup = .ok encoded ∧
        isName name ∧
        changed = { project with secrets := project.secrets.insert name encoded } := by
  rw [withSecret, bind_eq_ok_iff]
  refine exists_congr fun encoded ↦ ?_
  rw [encryptFor, mapError_eq_ok_iff, withEncoded, putSecret?]
  refine and_congr_right fun _ ↦ ?_
  by_cases hname : isName name
  · rw [if_pos hname]
    dsimp only
    rw [Except.ok.injEq, eq_comm]
    exact ⟨fun h ↦ ⟨hname, h⟩, And.right⟩
  · rw [if_neg hname]
    exact ⟨nofun, fun h ↦ absurd h.1 hname⟩

theorem withoutSecret_eq_ok_iff {name : String} {changed : Project} :
    project.withoutSecret name = .ok changed
      ↔ project.secrets.get? name ≠ none ∧
        changed = { project with secrets := project.secrets.erase name } := by
  rw [withoutSecret, removeSecret?]
  cases project.secrets.get? name with
  | none => exact ⟨nofun, fun h ↦ absurd rfl h.1⟩
  | some encoded =>
    rw [if_pos Option.isSome_some]
    dsimp only
    rw [Except.ok.injEq, eq_comm]
    exact ⟨fun h ↦ ⟨Option.some_ne_none _, h⟩, And.right⟩

/-- What the written secret of a variable is decrypted to. -/
def decryptEntryWith (project : Project) (envelope : Envelope) (requester : Option KeyPair)
    (outcome : Option (MediatorRequest → MediatorOutcome)) (timeout : Milliseconds)
    (name encoded : String) : Except ProjectError String :=
  (envelope.decryptWith ⟨encoded, project.sharedKeyId, requester, timeout⟩ outcome).mapError
    (.envelope name)

theorem decryptEntry_ofOutcome {m : Type → Type} [Monad m] [LawfulMonad m]
    (name encoded : String) :
    project.decryptEntry envelope (.ofOutcome requester outcome timeout : DecryptContext m) name
        encoded
      = pure (project.decryptEntryWith envelope requester outcome timeout name encoded) := by
  rw [decryptEntry, DecryptContext.ofOutcome, Envelope.decryptSecret_ofOutcome, pure_bind]
  rfl

/-! ## All secrets -/

/-- Encrypts entries anew, with what they are decrypted to. -/
def reencryptWith (envelope : Envelope) (entropy : Nat → EntropySource)
    (decrypt : String → String → Except ProjectError String) (lookup : KeyLookup) :
    (index : Nat) → List (String × String) → (rotated : Project) → Except ProjectError Project
  | _, [], rotated => .ok rotated
  | index, (name, encoded) :: rest, rotated => do
    let plaintext ← decrypt name encoded
    let rotated ←
      rotated.withSecret envelope (entropy index) name plaintext (Secret.formatOf encoded) lookup
    reencryptWith envelope entropy decrypt lookup (index + 1) rest rotated

theorem reencrypt_ofOutcome {m : Type → Type} [Monad m] [LawfulMonad m]
    (entropy : Nat → EntropySource) (index : Nat) (entries : List (String × String)) :
    project.reencrypt envelope entropy (.ofOutcome requester outcome timeout : DecryptContext m)
        lookup index entries rotated
      = ExceptT.mk (pure (reencryptWith envelope entropy
          (project.decryptEntryWith envelope requester outcome timeout) lookup index entries
          rotated)) := by
  induction entries generalizing index rotated with
  | nil => rfl
  | cons entry rest ih =>
    obtain ⟨name, encoded⟩ := entry
    rw [reencrypt, reencryptWith, decryptEntry_ofOutcome]
    cases project.decryptEntryWith envelope requester outcome timeout name encoded with
    | error error => exact mk_pure_error_bind error _
    | ok plaintext =>
      rw [mk_pure_ok_bind, ok_bind]
      cases rotated.withSecret envelope (entropy index) name plaintext (Secret.formatOf encoded)
        lookup with
      | error error => exact mk_pure_error_bind error _
      | ok rotated => rw [mk_pure_ok_bind, ok_bind, ih]

/-- The project with other recipients, and all secrets encrypted for them. -/
def rotatedWith (project : Project) (envelope : Envelope) (entropy : Nat → EntropySource)
    (requester : Option KeyPair) (outcome : Option (MediatorRequest → MediatorOutcome))
    (timeout : Milliseconds) (lookup : KeyLookup) (members services : List KeyId) :
    Except ProjectError Project :=
  reencryptWith envelope entropy (project.decryptEntryWith envelope requester outcome timeout)
    lookup 0 project.secrets.entries (project.replaceRecipients members services)

theorem rotated_ofOutcome {m : Type → Type} [Monad m] [LawfulMonad m]
    (entropy : Nat → EntropySource) (members services : List KeyId) :
    project.rotated envelope entropy (.ofOutcome requester outcome timeout : DecryptContext m)
        lookup members services
      = ExceptT.mk (pure (project.rotatedWith envelope entropy requester outcome timeout lookup
          members services)) :=
  reencrypt_ofOutcome entropy 0 project.secrets.entries

/-! ## Renewal -/

/-- The text that the written secret of a variable is replaced with: what it is decrypted to,
encrypted for the recipients of a project. -/
def renew (project : Project) (envelope : Envelope) (entropy : EntropySource)
    (decrypt : String → String → Except ProjectError String) (lookup : KeyLookup)
    (name encoded : String) : Except ProjectError String := do
  let plaintext ← decrypt name encoded
  let text ← project.encryptFor envelope entropy name plaintext (Secret.formatOf encoded) lookup
  if isName name then return text else .error (.invalidName name)

variable {entropy : Nat → EntropySource} {decrypt : String → String → Except ProjectError String}

theorem renew_eq_ok_iff {random : EntropySource} {name encoded text : String} :
    project.renew envelope random decrypt lookup name encoded = .ok text
      ↔ ∃ plaintext, decrypt name encoded = .ok plaintext ∧
        envelope.encryptSecret random ⟨plaintext, project.sharedKeyId, project.recipientKeyIds,
          Secret.formatOf encoded⟩ lookup = .ok text ∧ isName name := by
  rw [renew, bind_eq_ok_iff]
  refine exists_congr fun plaintext ↦ and_congr_right fun _ ↦ ?_
  rw [bind_eq_ok_iff]
  by_cases hname : isName name
  · simp only [hname, if_true, encryptFor, mapError_eq_ok_iff, and_true]
    exact ⟨fun ⟨_, h, heq⟩ ↦ Except.ok.inj heq ▸ h, fun h ↦ ⟨text, h, rfl⟩⟩
  · simp [hname]

/-- Encrypting a decrypted value and putting it under its name is putting the renewed text there. -/
theorem decrypt_bind_withSecret {random : EntropySource} {name encoded : String} :
    (decrypt name encoded >>= fun plaintext ↦
        project.withSecret envelope random name plaintext (Secret.formatOf encoded) lookup)
      = (fun text ↦ { project with secrets := project.secrets.insert name text })
          <$> project.renew envelope random decrypt lookup name encoded := by
  rw [renew]
  cases decrypt name encoded with
  | error error => rfl
  | ok plaintext =>
    rw [ok_bind, ok_bind, withSecret]
    cases project.encryptFor envelope random name plaintext (Secret.formatOf encoded) lookup with
    | error error => rfl
    | ok text =>
      rw [ok_bind, ok_bind, withEncoded, putSecret?]
      by_cases hname : isName name
      · rw [if_pos hname, if_pos hname]
        rfl
      · rw [if_neg hname, if_neg hname]
        rfl

theorem reencryptWith_cons {index : Nat} {name encoded : String} {rest : List (String × String)} :
    reencryptWith envelope entropy decrypt lookup index ((name, encoded) :: rest) rotated
      = rotated.renew envelope (entropy index) decrypt lookup name encoded >>= fun text ↦
          reencryptWith envelope entropy decrypt lookup (index + 1) rest
            { rotated with secrets := rotated.secrets.insert name text } := by
  rw [reencryptWith, ← bind_assoc, decrypt_bind_withSecret, bind_map_left]

/-- All entries are renewed, the first of them with the random bytes of number `index`. -/
def Renews (project : Project) (envelope : Envelope) (entropy : Nat → EntropySource)
    (decrypt : String → String → Except ProjectError String) (lookup : KeyLookup) (index : Nat)
    (entries : List (String × String)) : Prop :=
  ∀ k name encoded, entries[k]? = some (name, encoded) →
    ∃ text, project.renew envelope (entropy (index + k)) decrypt lookup name encoded = .ok text

theorem renews_cons_iff {index : Nat} {name encoded : String} {rest : List (String × String)} :
    rotated.Renews envelope entropy decrypt lookup index ((name, encoded) :: rest)
      ↔ (∃ text, rotated.renew envelope (entropy index) decrypt lookup name encoded = .ok text) ∧
        rotated.Renews envelope entropy decrypt lookup (index + 1) rest := by
  constructor
  · refine fun h ↦ ⟨h 0 name encoded rfl, fun k other old hk ↦ ?_⟩
    rw [Nat.add_assoc, Nat.add_comm 1]
    exact h (k + 1) other old hk
  · rintro ⟨hfirst, hrest⟩ k other old hk
    cases k with
    | zero =>
      cases hk
      exact hfirst
    | succ k =>
      rw [← Nat.add_assoc, Nat.add_right_comm]
      exact hrest k other old hk

theorem renews_of_reencryptWith {index : Nat} {entries : List (String × String)} {changed : Project}
    (h : reencryptWith envelope entropy decrypt lookup index entries rotated = .ok changed) :
    rotated.Renews envelope entropy decrypt lookup index entries := by
  induction entries generalizing index rotated with
  | nil => exact nofun
  | cons entry rest ih =>
    obtain ⟨name, encoded⟩ := entry
    rw [reencryptWith_cons] at h
    obtain ⟨text, htext, hrest⟩ := bind_eq_ok_iff.mp h
    exact renews_cons_iff.mpr ⟨⟨text, htext⟩,
      @ih { rotated with secrets := rotated.secrets.insert name text } (index + 1) hrest⟩

/-- If not all entries are renewed, there is a first one that is not. -/
theorem exists_fault_of_not_renews {index : Nat} {entries : List (String × String)}
    (h : ¬ rotated.Renews envelope entropy decrypt lookup index entries) :
    ∃ i name encoded error, entries[i]? = some (name, encoded) ∧
      rotated.Renews envelope entropy decrypt lookup index (entries.take i) ∧
      rotated.renew envelope (entropy (index + i)) decrypt lookup name encoded = .error error := by
  induction entries generalizing index with
  | nil => exact absurd nofun h
  | cons entry rest ih =>
    obtain ⟨first, old⟩ := entry
    cases hfirst : rotated.renew envelope (entropy index) decrypt lookup first old with
    | error error => exact ⟨0, first, old, error, rfl, nofun, hfirst⟩
    | ok text =>
      rw [renews_cons_iff, not_and] at h
      obtain ⟨i, name, encoded, error, hi, hbefore, hfault⟩ := ih (h ⟨text, hfirst⟩)
      refine ⟨i + 1, name, encoded, error, hi, ?_, ?_⟩
      · rw [List.take_succ_cons, renews_cons_iff]
        exact ⟨⟨text, hfirst⟩, hbefore⟩
      · rw [← Nat.add_assoc, Nat.add_right_comm]
        exact hfault

/-- **Renewing all entries** puts the renewed texts under their names and changes nothing else. -/
theorem reencryptWith_of_renews {index : Nat} {entries : List (String × String)}
    (hsorted : NameSorted entries)
    (h : rotated.Renews envelope entropy decrypt lookup index entries) :
    ∃ secrets, reencryptWith envelope entropy decrypt lookup index entries rotated
        = .ok { rotated with secrets := secrets } ∧
      (∀ name, entries.lookup name = none → secrets.get? name = rotated.secrets.get? name) ∧
      ∀ k name encoded, entries[k]? = some (name, encoded) → ∃ text,
        rotated.renew envelope (entropy (index + k)) decrypt lookup name encoded = .ok text ∧
        secrets.get? name = some text := by
  induction entries generalizing index rotated with
  | nil => exact ⟨rotated.secrets, rfl, fun _ _ ↦ rfl, nofun⟩
  | cons entry rest ih =>
    obtain ⟨first, old⟩ := entry
    obtain ⟨hbelow, hrestSorted⟩ := List.pairwise_cons.mp hsorted
    obtain ⟨⟨text, htext⟩, hrest⟩ := renews_cons_iff.mp h
    obtain ⟨secrets, hok, hother, hsame⟩ :=
      @ih { rotated with secrets := rotated.secrets.insert first text } (index + 1) hrestSorted
        hrest
    refine ⟨secrets, ?_, ?_, ?_⟩
    · rw [reencryptWith_cons, htext, ok_bind, hok]
    · intro name hname
      rw [Entries.lookup_cons] at hname
      by_cases heq : name = first
      · rw [if_pos heq] at hname
        cases hname
      · rw [if_neg heq] at hname
        rw [hother name hname, NamedTexts.get?_insert, if_neg heq]
    · intro k name encoded hk
      cases k with
      | zero =>
        -- No later entry has this name, so the text that was just put there stays.
        cases hk
        refine ⟨text, htext, ?_⟩
        rw [hother first (NamedTexts.lookup_of_below hbelow), NamedTexts.get?_insert, if_pos rfl]
      | succ k =>
        rw [← Nat.add_assoc, Nat.add_right_comm]
        exact hsame k name encoded hk

/-- **Encrypting anew** changes the texts under the names of the entries and nothing else, and what
is then there encrypts what was decrypted from the entry. -/
theorem reencryptWith_spec {index : Nat} {entries : List (String × String)} {changed : Project}
    (hsorted : NameSorted entries)
    (h : reencryptWith envelope entropy decrypt lookup index entries rotated = .ok changed) :
    ∃ secrets, changed = { rotated with secrets := secrets } ∧
      (∀ name, entries.lookup name = none → secrets.get? name = rotated.secrets.get? name) ∧
      ∀ name encoded, entries.lookup name = some encoded → ∃ plaintext random text,
        decrypt name encoded = .ok plaintext ∧
        envelope.encryptSecret random
          ⟨plaintext, rotated.sharedKeyId, rotated.recipientKeyIds, Secret.formatOf encoded⟩ lookup
            = .ok text ∧
        secrets.get? name = some text := by
  obtain ⟨secrets, hok, hother, hsame⟩ :=
    reencryptWith_of_renews hsorted (renews_of_reencryptWith h)
  rw [hok] at h
  cases h
  refine ⟨secrets, rfl, hother, fun name encoded hname ↦ ?_⟩
  obtain ⟨k, hk⟩ := NamedTexts.exists_getElem?_of_lookup hname
  obtain ⟨text, hrenew, hfound⟩ := hsame k name encoded hk
  obtain ⟨plaintext, hdecrypt, hencrypt, -⟩ := renew_eq_ok_iff.mp hrenew
  exact ⟨plaintext, _, text, hdecrypt, hencrypt, hfound⟩

end Project

end DualSeal

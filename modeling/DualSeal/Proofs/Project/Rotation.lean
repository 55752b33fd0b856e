import DualSeal.Proofs.Project.Decryption

/-!
# Rotations

A rotation renews the texts of a project one after the other. The mediator's calls may do anything
to the state, so that the state afterwards tells what was asked of it: with texts that can all be
renewed, what they come to (`run_reencrypt_of_renews`), and else what comes up to the first one that
cannot (`run_reencrypt_of_fault`).

The texts and the names that are found in a project are arbitrary, and so is the envelope. What a
project becomes whose entries can all be renewed is determined by what was in it
(`exists_rotates`, `Rotates.unique`).
-/

namespace DualSeal

/-- What a rotation is called with, and how the mediator's calls end, if there is a mediator. -/
structure Rotation where
  entropy : Nat → EntropySource
  members : List KeyId
  services : List KeyId
  requester : Option KeyPair
  outcome : Option (MediatorRequest → MediatorOutcome)
  timeout : Milliseconds
  lookup : KeyLookup

namespace Rotation

variable {σ : Type} (r : Rotation) (effect : MediatorRequest → σ → σ) (envelope : Envelope)
  (project : Project)

/-- The context of the call, with a mediator whose calls have this effect. -/
def context : DecryptContext (StateM σ) :=
  ⟨r.requester, r.outcome.map (Mediator.acting effect), r.timeout⟩

def perform (secrets : ProjectSecrets (StateM σ)) : ExceptT ProjectError (StateM σ) Unit :=
  secrets.rotate r.entropy r.members r.services (r.context effect) r.lookup

/-- How a text of the project is decrypted. -/
def decryption (encoded : String) : DecryptCommand :=
  ⟨encoded, project.sharedKeyId, r.requester, r.timeout⟩

/-- The recipients: the first occurrences of the members and then the services. -/
def recipientKeyIds : List KeyId := Project.firstOccurrences [] (r.members ++ r.services)

/-- How the plaintext of a text is encrypted: for the new recipients, in the form of the text. -/
def encryption (encoded plaintext : String) : EncryptCommand :=
  ⟨plaintext, project.sharedKeyId, r.recipientKeyIds, Secret.formatOf encoded⟩

/-- What the mediator is asked when a text is decrypted, if it is. -/
def request? (encoded : String) : Option MediatorRequest :=
  (Envelope.inquiry (r.decryption project encoded) r.outcome.isSome).toOption.map
    Envelope.Inquiry.request

/-- A state after the texts of entries were decrypted. -/
def after (entries : List (String × String)) (state : σ) : σ :=
  (entries.filterMap fun entry ↦ r.request? project entry.2).foldl
    (fun state request ↦ effect request state) state

/-- The entry of this number can be renewed: its text decrypts, the plaintext is encrypted for the
new recipients, and the name is one for a variable. -/
def Renewable (k : Nat) (name encoded : String) : Prop :=
  ∃ plaintext text, envelope.decryptWith (r.decryption project encoded) r.outcome = .ok plaintext ∧
    envelope.encryptSecret (r.entropy k) (r.encryption project encoded plaintext) r.lookup
      = .ok text ∧ Project.isName name

/-- The fault of an entry that cannot be renewed. -/
inductive Fails (k : Nat) (name encoded : String) : ProjectError → Prop
  | decryption {fault : EnvelopeError}
    (h : envelope.decryptWith (r.decryption project encoded) r.outcome = .error fault) :
    Fails k name encoded (.envelope name fault)
  | encryption {plaintext : String} {fault : EnvelopeError}
    (hdecrypt : envelope.decryptWith (r.decryption project encoded) r.outcome = .ok plaintext)
    (h : envelope.encryptSecret (r.entropy k) (r.encryption project encoded plaintext) r.lookup
      = .error fault) :
    Fails k name encoded (.envelope name fault)
  | name {plaintext text : String}
    (hdecrypt : envelope.decryptWith (r.decryption project encoded) r.outcome = .ok plaintext)
    (hencrypt : envelope.encryptSecret (r.entropy k) (r.encryption project encoded plaintext)
      r.lookup = .ok text)
    (h : ¬ Project.isName name) :
    Fails k name encoded (.invalidName name)

/-- Every entry of the project can be renewed. -/
def AllRenewable : Prop :=
  ∀ k name encoded, project.secrets.entries[k]? = some (name, encoded) →
    r.Renewable envelope project k name encoded

/-- The entry of this number is the first that cannot be renewed, and this is its fault. -/
structure FailsFirst (i : Nat) (error : ProjectError) : Prop where
  fails : ∃ name encoded, project.secrets.entries[i]? = some (name, encoded) ∧
    r.Fails envelope project i name encoded error
  before : ∀ k < i, ∀ name encoded, project.secrets.entries[k]? = some (name, encoded) →
    r.Renewable envelope project k name encoded

/-- All texts of the project are renewed: the shared key and the names stay, the recipients are the
new ones, and under each name there is an encryption of what was decrypted there. It has the form of
the old text, and is read as a secret with shards for the shared key and the first occurrences of
the members and then the services, unless a ciphertext is empty. -/
structure Rotates (rotated : Project) : Prop where
  sharedKeyId : rotated.sharedKeyId = project.sharedKeyId
  members : rotated.memberKeyIds = r.members
  services : rotated.serviceKeyIds = r.services
  names : rotated.secrets.names = project.secrets.names
  texts : ∀ k name encoded, project.secrets.entries[k]? = some (name, encoded) →
    ∃ plaintext text,
      envelope.decryptWith (r.decryption project encoded) r.outcome = .ok plaintext ∧
      envelope.encryptSecret (r.entropy k) (r.encryption project encoded plaintext) r.lookup
        = .ok text ∧
      rotated.secrets.get? name = some text ∧
      Secret.formatOf text = Secret.formatOf encoded ∧
      ∃ secret : Secret, text = secret.encode (Secret.formatOf encoded) ∧
        secret.keyIds = project.sharedKeyId :: r.recipientKeyIds ∧
        ((∀ shard ∈ secret.shards, shard.value ≠ "") → Secret.decode text = .ok secret)

end Rotation

/-! ## Decrypting with effects -/

namespace Rotation

variable {σ : Type} {r : Rotation} {effect : MediatorRequest → σ → σ} {envelope : Envelope}
  {project rotated : Project}

theorem after_append (before behind : List (String × String)) (state : σ) :
    r.after effect project (before ++ behind) state
      = r.after effect project behind (r.after effect project before state) := by
  rw [after, List.filterMap_append, List.foldl_append]
  rfl

theorem after_singleton (name encoded : String) (state : σ) :
    r.after effect project [(name, encoded)] state
      = Mediator.asked effect (r.request? project encoded).toList state := by
  rw [after, List.filterMap_cons, List.filterMap_nil]
  rcases r.request? project encoded with _ | request <;> rfl

theorem run_decryptEntry (name encoded : String) (state : σ) :
    (project.decryptEntry envelope (r.context effect) name encoded).run state
      = (project.decryptEntryWith envelope r.requester r.outcome r.timeout name encoded,
        r.after effect project [(name, encoded)] state) := by
  rw [after_singleton]
  exact Project.run_decryptEntry_acting name encoded

/-! ## One entry -/

/-- The text that the entry of this number is replaced with. -/
def renew (r : Rotation) (envelope : Envelope) (project rotated : Project) (k : Nat)
    (name encoded : String) : Except ProjectError String :=
  rotated.renew envelope (r.entropy k)
    (project.decryptEntryWith envelope r.requester r.outcome r.timeout) r.lookup name encoded

/-- **One step.** The text of the first entry is renewed, or the whole fails with its fault; the
mediator is asked for this entry either way. -/
theorem run_reencrypt_cons {k : Nat} {name encoded : String} {rest : List (String × String)}
    (state : σ) :
    (project.reencrypt envelope r.entropy (r.context effect) r.lookup k ((name, encoded) :: rest)
        rotated).run.run state
      = match r.renew envelope project rotated k name encoded with
        | .error error => (.error error, r.after effect project [(name, encoded)] state)
        | .ok text =>
          (project.reencrypt envelope r.entropy (r.context effect) r.lookup (k + 1) rest
            { rotated with secrets := rotated.secrets.insert name text }).run.run
              (r.after effect project [(name, encoded)] state) := by
  let insert (text : String) : Project :=
    { rotated with secrets := rotated.secrets.insert name text }
  let put (plaintext : String) : Except ProjectError Project :=
    rotated.withSecret envelope (r.entropy k) name plaintext (Secret.formatOf encoded) r.lookup
  have hput : ((ExceptT.mk (project.decryptEntry envelope (r.context effect) name encoded) :
        ExceptT ProjectError (StateM σ) String) >>= fun plaintext ↦
          ExceptT.mk (pure (put plaintext))).run.run state
      = (insert <$> r.renew envelope project rotated k name encoded,
        r.after effect project [(name, encoded)] state) := by
    rw [renew, ← Project.decrypt_bind_withSecret]
    have hdecrypt := @run_decryptEntry σ r effect envelope project name encoded state
    cases hoc : project.decryptEntryWith envelope r.requester r.outcome r.timeout name encoded with
    | error error =>
      rw [hoc] at hdecrypt
      exact run_bind_error _ hdecrypt
    | ok plaintext =>
      rw [hoc] at hdecrypt
      exact run_bind_ok _ hdecrypt
  have hcons : project.reencrypt envelope r.entropy (r.context effect) r.lookup k
        ((name, encoded) :: rest) rotated
      = ((ExceptT.mk (project.decryptEntry envelope (r.context effect) name encoded) :
        ExceptT ProjectError (StateM σ) String) >>= fun plaintext ↦
          ExceptT.mk (pure (put plaintext))) >>=
            project.reencrypt envelope r.entropy (r.context effect) r.lookup (k + 1) rest := by
    rw [Project.reencrypt, bind_assoc]
  rw [hcons]
  cases hrenew : r.renew envelope project rotated k name encoded with
  | error error =>
    rw [hrenew] at hput
    exact run_bind_error _ hput
  | ok text =>
    rw [hrenew] at hput
    exact run_bind_ok _ hput

/-! ## All entries -/

theorem run_reencrypt_of_renews {k : Nat} {entries : List (String × String)} (state : σ)
    (h : rotated.Renews envelope r.entropy
      (project.decryptEntryWith envelope r.requester r.outcome r.timeout) r.lookup k entries) :
    (project.reencrypt envelope r.entropy (r.context effect) r.lookup k entries rotated).run.run
        state
      = (Project.reencryptWith envelope r.entropy
          (project.decryptEntryWith envelope r.requester r.outcome r.timeout) r.lookup k entries
          rotated, r.after effect project entries state) := by
  induction entries generalizing k rotated state with
  | nil => rfl
  | cons entry rest ih =>
    obtain ⟨name, encoded⟩ := entry
    obtain ⟨⟨text, htext⟩, hrest⟩ := Project.renews_cons_iff.mp h
    have hrenew : r.renew envelope project rotated k name encoded = .ok text := htext
    have hafter := @after_append σ r effect project [(name, encoded)] rest state
    rw [run_reencrypt_cons, hrenew, Project.reencryptWith_cons, htext, ok_bind]
    rw [List.singleton_append] at hafter
    rw [hafter]
    exact ih _ hrest

theorem run_reencrypt_of_fault {k i : Nat} {entries : List (String × String)}
    {name encoded : String} {error : ProjectError} (state : σ)
    (hi : entries[i]? = some (name, encoded))
    (hbefore : rotated.Renews envelope r.entropy
      (project.decryptEntryWith envelope r.requester r.outcome r.timeout) r.lookup k
      (entries.take i))
    (hfault : r.renew envelope project rotated (k + i) name encoded = .error error) :
    (project.reencrypt envelope r.entropy (r.context effect) r.lookup k entries rotated).run.run
        state
      = (.error error, r.after effect project (entries.take (i + 1)) state) := by
  induction i generalizing k entries rotated state with
  | zero =>
    obtain ⟨rest, rfl⟩ : ∃ rest, entries = (name, encoded) :: rest := by
      cases entries with
      | nil => cases hi
      | cons entry rest =>
        cases hi
        exact ⟨rest, rfl⟩
    rw [Nat.add_zero] at hfault
    rw [run_reencrypt_cons, hfault]
    rfl
  | succ i ih =>
    cases entries with
    | nil => cases hi
    | cons entry rest =>
      obtain ⟨first, old⟩ := entry
      rw [List.take_succ_cons] at hbefore
      obtain ⟨⟨text, htext⟩, hrest⟩ := Project.renews_cons_iff.mp hbefore
      have hrenew : r.renew envelope project rotated k first old = .ok text := htext
      have hafter := @after_append σ r effect project [(first, old)] (rest.take (i + 1)) state
      rw [List.singleton_append] at hafter
      rw [run_reencrypt_cons, hrenew, List.take_succ_cons, hafter]
      refine @ih { rotated with secrets := rotated.secrets.insert first text } (k + 1) rest _ hi
        hrest ?_
      rw [Nat.add_assoc, Nat.add_comm 1]
      exact hfault

/-! ## The project -/

theorem renew_replaceRecipients (k : Nat) (name encoded : String) :
    r.renew envelope project (project.replaceRecipients r.members r.services) k name encoded
      = (do
        let plaintext ←
          (envelope.decryptWith (r.decryption project encoded) r.outcome).mapError (.envelope name)
        let text ← (envelope.encryptSecret (r.entropy k) (r.encryption project encoded plaintext)
          r.lookup).mapError (.envelope name)
        if Project.isName name then return text else .error (.invalidName name)) := rfl

theorem renew_eq_ok_iff {k : Nat} {name encoded text : String} :
    r.renew envelope project (project.replaceRecipients r.members r.services) k name encoded
        = .ok text
      ↔ ∃ plaintext,
        envelope.decryptWith (r.decryption project encoded) r.outcome = .ok plaintext ∧
        envelope.encryptSecret (r.entropy k) (r.encryption project encoded plaintext) r.lookup
          = .ok text ∧ Project.isName name := by
  rw [renew, Project.renew_eq_ok_iff]
  refine exists_congr fun plaintext ↦ ?_
  rw [Project.decryptEntryWith, mapError_eq_ok_iff]
  rfl

theorem renewable_iff {k : Nat} {name encoded : String} :
    r.Renewable envelope project k name encoded
      ↔ ∃ text, r.renew envelope project (project.replaceRecipients r.members r.services) k name
          encoded = .ok text := by
  rw [Renewable, exists_comm]
  exact exists_congr fun text ↦ renew_eq_ok_iff.symm

theorem fails_of_renew {k : Nat} {name encoded : String} {error : ProjectError}
    (h : r.renew envelope project (project.replaceRecipients r.members r.services) k name encoded
      = .error error) : r.Fails envelope project k name encoded error := by
  rw [renew_replaceRecipients] at h
  cases hdecrypt : envelope.decryptWith (r.decryption project encoded) r.outcome with
  | error fault =>
    rw [hdecrypt] at h
    cases h
    exact .decryption hdecrypt
  | ok plaintext =>
    rw [hdecrypt, Except.mapError, ok_bind] at h
    cases hencrypt : envelope.encryptSecret (r.entropy k) (r.encryption project encoded plaintext)
        r.lookup with
    | error fault =>
      rw [hencrypt] at h
      cases h
      exact .encryption hdecrypt hencrypt
    | ok text =>
      rw [hencrypt, Except.mapError, ok_bind] at h
      by_cases hname : Project.isName name
      · rw [if_pos hname] at h
        cases h
      · rw [if_neg hname] at h
        cases h
        exact .name hdecrypt hencrypt hname

theorem allRenewable_iff :
    r.AllRenewable envelope project
      ↔ (project.replaceRecipients r.members r.services).Renews envelope r.entropy
        (project.decryptEntryWith envelope r.requester r.outcome r.timeout) r.lookup 0
        project.secrets.entries := by
  refine forall_congr' fun k ↦ forall_congr' fun name ↦ forall_congr' fun encoded ↦ ?_
  rw [renewable_iff, Nat.zero_add]
  rfl

theorem Rotates.unique {a b : Project} (ha : r.Rotates envelope project a)
    (hb : r.Rotates envelope project b) : a = b := by
  have hsecrets : a.secrets = b.secrets := by
    refine NamedTexts.ext_get? fun name ↦ ?_
    cases hname : project.secrets.get? name with
    | none =>
      rw [(NamedTexts.names_eq_iff.mp ha.names name).mpr hname,
        (NamedTexts.names_eq_iff.mp hb.names name).mpr hname]
    | some encoded =>
      obtain ⟨k, hk⟩ := NamedTexts.exists_getElem?_of_lookup hname
      obtain ⟨plaintext, text, hdecrypt, hencrypt, hfound, -⟩ := ha.texts k name encoded hk
      obtain ⟨plaintext', text', hdecrypt', hencrypt', hfound', -⟩ := hb.texts k name encoded hk
      -- Decryption and encryption are functions, so the texts are the same.
      obtain rfl : plaintext = plaintext' := Except.ok.inj (hdecrypt.symm.trans hdecrypt')
      obtain rfl : text = text' := Except.ok.inj (hencrypt.symm.trans hencrypt')
      rw [hfound, hfound']
  obtain ⟨sharedA, membersA, servicesA, secretsA⟩ := a
  obtain ⟨sharedB, membersB, servicesB, secretsB⟩ := b
  rw [Project.mk.injEq]
  exact ⟨ha.sharedKeyId.trans hb.sharedKeyId.symm, ha.members.trans hb.members.symm,
    ha.services.trans hb.services.symm, hsecrets⟩

/-- **What a rotation makes of a project** all of whose entries can be renewed. -/
theorem exists_rotates (h : r.AllRenewable envelope project) :
    ∃ rotated, r.Rotates envelope project rotated ∧
      Project.reencryptWith envelope r.entropy
          (project.decryptEntryWith envelope r.requester r.outcome r.timeout) r.lookup 0
          project.secrets.entries (project.replaceRecipients r.members r.services)
        = .ok rotated := by
  obtain ⟨secrets, hok, hother, hsame⟩ :=
    Project.reencryptWith_of_renews project.secrets.sorted (allRenewable_iff.mp h)
  refine ⟨⟨project.sharedKeyId, r.members, r.services, secrets⟩, ⟨rfl, rfl, rfl, ?_, ?_⟩, hok⟩
  · refine NamedTexts.names_eq_iff.mpr fun name ↦ ?_
    cases hname : project.secrets.get? name with
    | none =>
      rw [hother name hname]
      exact iff_of_true hname rfl
    | some encoded =>
      obtain ⟨k, hk⟩ := NamedTexts.exists_getElem?_of_lookup hname
      obtain ⟨text, -, hfound⟩ := hsame k name encoded hk
      rw [hfound]
      exact iff_of_false (Option.some_ne_none _) (Option.some_ne_none _)
  · intro k name encoded hk
    obtain ⟨text, hrenew, hfound⟩ := hsame k name encoded hk
    rw [Nat.zero_add] at hrenew
    obtain ⟨plaintext, hdecrypt, hencrypt, -⟩ := renew_eq_ok_iff.mp hrenew
    obtain ⟨first, second, secret, hseals, rfl⟩ := Envelope.exists_seals_of_encryptSecret hencrypt
    have hkeyIds : secret.keyIds = project.sharedKeyId :: r.recipientKeyIds := by
      rw [hseals.keyIds, encryption, recipientKeyIds, Project.firstOccurrences_firstOccurrences]
    exact ⟨plaintext, _, hdecrypt, hencrypt, hfound, hseals.formatOf_encode _, secret, rfl, hkeyIds,
      fun hvalues ↦ hseals.decode_encode hvalues _⟩

end Rotation

end DualSeal

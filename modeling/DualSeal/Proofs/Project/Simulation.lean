import DualSeal.Proofs.Project.Repository
import DualSeal.Proofs.Envelope.RoundTrip
import Mathlib.Data.Set.Defs

/-!
# Projects as maps from names to plaintexts

Setting, removing and rotating, in any order and whether or not each call succeeds, leave a project
behind that reads like a map from names to plaintexts, for the recipients of the last rotation and
for nobody else (`simulates_play`).

The invariant of a run (`Tracks`) says that the project names the recipients of the ledger, and
that under each name of the ledger there is a text that conceals the plaintext: the recipients
decrypt it, others have no shard in it (`Conceals`). How the text came to be does not matter any
more, so a rotation only has to turn texts that conceal for the old recipients into such for the
new ones.

Lookups may fail, find nothing, or find keys of strangers. They are only expected not to find,
under the id of a key pair that takes part, another key that has the same fingerprint.
-/

namespace DualSeal

open Envelope (KnowsPair decryptLocal)

/-! ## Texts that conceal a plaintext -/

/-- The recipients among the parties decrypt the text to the plaintext, and whoever is not a
recipient has no shard in it. The shared key is not a recipient. -/
structure Conceals (encryption : ShareEncryption) (shared : KeyPair) (parties : Set KeyPair)
    (recipients : List KeyId) (plaintext encoded : String) : Prop where
  fresh : shared.id ∉ recipients
  opens : ∀ pair ∈ parties, pair.id ∈ recipients → ∀ timeout,
    decryptLocal ⟨encryption, Shamir.scheme⟩ shared encoded pair timeout = .ok plaintext
  refuses : ∀ pair : KeyPair, pair.id ∉ recipients → ∀ timeout,
    decryptLocal ⟨encryption, Shamir.scheme⟩ shared encoded pair timeout
      = .error (.noMatchingShard pair.id)

section Texts

variable {encryption : ShareEncryption} {shared : KeyPair} {parties : Set KeyPair}
  {lookup : KeyLookup} {plaintext encoded : String}

theorem conceals_of_encryptSecret (project : Project) {entropy : EntropySource}
    {format : WireFormat} (htrips : ∀ key, encryption.RoundTrips key) (hshared : shared ∈ parties)
    (hknows : ∀ pair ∈ parties, KnowsPair lookup pair) (hid : project.sharedKeyId = shared.id)
    (h : Envelope.encryptSecret ⟨encryption, Shamir.scheme⟩ entropy
      ⟨plaintext, project.sharedKeyId, project.recipientKeyIds, format⟩ lookup = .ok encoded) :
    Conceals encryption shared parties (project.memberKeyIds ++ project.serviceKeyIds) plaintext
      encoded := by
  obtain ⟨first, second, secret, -, hcontains⟩ :=
    Envelope.exists_contains_of_encryptSecret h fun _ _ key _ ↦ htrips key
  refine ⟨?_, ?_, ?_⟩
  · intro hmem
    exact hcontains.fresh (hid ▸ Project.mem_recipientKeyIds.mpr hmem)
  · intro pair hpair hmem timeout
    exact Envelope.decryptLocal_encryptSecret h (fun _ _ key _ ↦ htrips key) hid
      (Project.mem_recipientKeyIds.mpr hmem) (hknows shared hshared) (hknows pair hpair)
      (htrips _) (htrips _)
  · intro pair hmem timeout
    exact Envelope.decryptLocal_encryptSecret_of_notMem h (fun _ _ key _ ↦ htrips key) hid
      fun h ↦ hmem (Project.mem_recipientKeyIds.mp h)

theorem Conceals.eq_of_decryptLocal {recipients : List KeyId} {pair : KeyPair}
    {timeout : Milliseconds} {text : String}
    (h : Conceals encryption shared parties recipients plaintext encoded) (hpair : pair ∈ parties)
    (hdecrypt : decryptLocal ⟨encryption, Shamir.scheme⟩ shared encoded pair timeout = .ok text) :
    text = plaintext := by
  by_cases hmem : pair.id ∈ recipients
  · rw [h.opens pair hpair hmem] at hdecrypt
    exact (Except.ok.inj hdecrypt).symm
  · rw [h.refuses pair hmem] at hdecrypt
    cases hdecrypt

end Texts

/-- What a rotation decrypts, it decrypts for a requester with the mediator's help. -/
theorem Project.exists_decryptLocal_of_decryptEntryWith {project : Project} {envelope : Envelope}
    {shared : KeyPair} {requester : Option KeyPair} {mediated : Bool} {timeout : Milliseconds}
    {name encoded plaintext : String} (hid : project.sharedKeyId = shared.id)
    (h : project.decryptEntryWith envelope requester
      (if mediated then some (LocalMediator.outcome ⟨shared, envelope.encryption⟩) else none)
      timeout name encoded = .ok plaintext) :
    ∃ pair, requester = some pair ∧
      decryptLocal envelope shared encoded pair timeout = .ok plaintext := by
  rw [decryptEntryWith, mapError_eq_ok_iff] at h
  obtain ⟨⟨pair, rfl⟩, hmediated⟩ := Envelope.exists_requester_of_decryptWith h
  cases mediated with
  | false => cases hmediated
  | true =>
    rw [if_pos rfl, hid] at h
    exact ⟨pair, rfl, h⟩

namespace ProjectSecrets

/-! ## Operations and the ledger -/

/-- A call that changes a project. The mediator of a rotation, where there is one, is the holder of
the shared key. -/
inductive Operation where
  | set (entropy : EntropySource) (name plaintext : String) (format : WireFormat)
    (lookup : KeyLookup)
  | remove (name : String)
  | rotate (entropy : Nat → EntropySource) (members services : List KeyId)
    (requester : Option KeyPair) (mediated : Bool) (timeout : Milliseconds) (lookup : KeyLookup)

/-- What should be found in a project: plaintexts under names, for these recipients. -/
structure Ledger where
  texts : String → Option String
  recipients : List KeyId

namespace Operation

def perform {σ : Type} (secrets : ProjectSecrets (StateM σ)) (shared : KeyPair) :
    Operation → ExceptT ProjectError (StateM σ) Unit
  | set entropy name plaintext format lookup => secrets.set entropy name plaintext format lookup
  | remove name => secrets.remove name
  | rotate entropy members services requester mediated timeout lookup =>
    secrets.rotate entropy members services
      ⟨requester,
        if mediated then some (LocalMediator.toMediator ⟨shared, secrets.envelope.encryption⟩)
        else none,
        timeout⟩ lookup

/-- What the call changes in the ledger if it succeeds. -/
def record : Operation → Ledger → Ledger
  | set _ name plaintext _ _, ledger =>
    { ledger with texts := fun other ↦ if other = name then some plaintext else ledger.texts other }
  | remove name, ledger =>
    { ledger with texts := fun other ↦ if other = name then none else ledger.texts other }
  | rotate _ members services _ _ _ _, ledger => { ledger with recipients := members ++ services }

/-- The lookup of the call knows the parties, and the requester is one of them. -/
def Honest (parties : Set KeyPair) : Operation → Prop
  | set _ _ _ _ lookup => ∀ pair ∈ parties, KnowsPair lookup pair
  | remove _ => True
  | rotate _ _ _ requester _ _ lookup =>
    (∀ pair ∈ parties, KnowsPair lookup pair) ∧ ∀ pair, requester = some pair → pair ∈ parties

end Operation

/-- Performs operations one after the other, and records those that succeed. -/
def play {σ : Type} (secrets : ProjectSecrets (StateM σ)) (shared : KeyPair) :
    List Operation → σ → Ledger → σ × Ledger
  | [], state, ledger => (state, ledger)
  | op :: ops, state, ledger =>
    match (op.perform secrets shared).run.run state with
    | (.ok (), after) => play secrets shared ops after (op.record ledger)
    | (.error _, after) => play secrets shared ops after ledger

/-! ## The invariant -/

/-- The project has the recipients of the ledger, and under each of its names a text that conceals
the plaintext for them. -/
structure Tracks (encryption : ShareEncryption) (shared : KeyPair) (parties : Set KeyPair)
    (project : Project) (ledger : Ledger) : Prop where
  sharedKeyId : project.sharedKeyId = shared.id
  recipients : project.memberKeyIds ++ project.serviceKeyIds = ledger.recipients
  absent : ∀ name, ledger.texts name = none → project.secrets.get? name = none
  present : ∀ name plaintext, ledger.texts name = some plaintext → ∃ encoded,
    project.secrets.get? name = some encoded ∧
    Conceals encryption shared parties ledger.recipients plaintext encoded

namespace Tracks

variable {encryption : ShareEncryption} {shared : KeyPair} {parties : Set KeyPair}
  {project changed : Project} {ledger : Ledger} {lookup : KeyLookup}

theorem create (hid : project.sharedKeyId = shared.id) (hempty : project.secrets = .empty) :
    Tracks encryption shared parties project
      ⟨fun _ ↦ none, project.memberKeyIds ++ project.serviceKeyIds⟩ := by
  refine ⟨hid, rfl, fun name _ ↦ ?_, nofun⟩
  rw [hempty, NamedTexts.get?_empty]

theorem withSecret {entropy : EntropySource} {name plaintext : String} {format : WireFormat}
    (h : Tracks encryption shared parties project ledger)
    (htrips : ∀ key, encryption.RoundTrips key) (hshared : shared ∈ parties)
    (hknows : ∀ pair ∈ parties, KnowsPair lookup pair)
    (hchanged : project.withSecret ⟨encryption, Shamir.scheme⟩ entropy name plaintext format lookup
      = .ok changed) :
    Tracks encryption shared parties changed
      ((Operation.set entropy name plaintext format lookup).record ledger) := by
  obtain ⟨encoded, hencrypt, -, rfl⟩ := Project.withSecret_eq_ok_iff.mp hchanged
  have hconceals := conceals_of_encryptSecret project htrips hshared hknows h.sharedKeyId hencrypt
  rw [h.recipients] at hconceals
  refine ⟨h.sharedKeyId, h.recipients, ?_, ?_⟩
  · intro other hother
    dsimp only [Operation.record] at hother ⊢
    rw [NamedTexts.get?_insert]
    by_cases heq : other = name
    · rw [if_pos heq] at hother
      cases hother
    · rw [if_neg heq] at hother ⊢
      exact h.absent other hother
  · intro other text hother
    dsimp only [Operation.record] at hother ⊢
    rw [NamedTexts.get?_insert]
    by_cases heq : other = name
    · rw [if_pos heq] at hother ⊢
      cases hother
      exact ⟨encoded, rfl, hconceals⟩
    · rw [if_neg heq] at hother ⊢
      exact h.present other text hother

theorem withoutSecret {name : String} (h : Tracks encryption shared parties project ledger)
    (hchanged : project.withoutSecret name = .ok changed) :
    Tracks encryption shared parties changed ((Operation.remove name).record ledger) := by
  obtain ⟨-, rfl⟩ := Project.withoutSecret_eq_ok_iff.mp hchanged
  refine ⟨h.sharedKeyId, h.recipients, ?_, ?_⟩
  · intro other hother
    dsimp only [Operation.record] at hother ⊢
    rw [NamedTexts.get?_erase]
    by_cases heq : other = name
    · rw [if_pos heq]
    · rw [if_neg heq] at hother ⊢
      exact h.absent other hother
  · intro other text hother
    dsimp only [Operation.record] at hother ⊢
    rw [NamedTexts.get?_erase]
    by_cases heq : other = name
    · rw [if_pos heq] at hother
      cases hother
    · rw [if_neg heq] at hother ⊢
      exact h.present other text hother

theorem rotatedWith {entropy : Nat → EntropySource} {members services : List KeyId}
    {requester : Option KeyPair} {mediated : Bool} {timeout : Milliseconds}
    (h : Tracks encryption shared parties project ledger)
    (htrips : ∀ key, encryption.RoundTrips key) (hshared : shared ∈ parties)
    (hknows : ∀ pair ∈ parties, KnowsPair lookup pair)
    (hrequester : ∀ pair, requester = some pair → pair ∈ parties)
    (hchanged : project.rotatedWith ⟨encryption, Shamir.scheme⟩ entropy requester
      (if mediated then some (LocalMediator.outcome ⟨shared, encryption⟩) else none) timeout lookup
      members services = .ok changed) :
    Tracks encryption shared parties changed
      ((Operation.rotate entropy members services requester mediated timeout lookup).record
        ledger) := by
  obtain ⟨secrets, rfl, hother, hsame⟩ :=
    Project.reencryptWith_spec project.secrets.sorted hchanged
  refine ⟨h.sharedKeyId, rfl, ?_, ?_⟩
  · -- Only names that the project has are encrypted anew.
    intro name hname
    have hgone : project.secrets.get? name = none := h.absent name hname
    exact (hother name hgone).trans hgone
  · intro name plaintext hname
    obtain ⟨encoded, hencoded, hconceals⟩ := h.present name plaintext hname
    obtain ⟨text, random, reencoded, hdecrypt, hencrypt, hfound⟩ := hsame name encoded hencoded
    obtain ⟨pair, hpair, hlocal⟩ :=
      Project.exists_decryptLocal_of_decryptEntryWith h.sharedKeyId hdecrypt
    -- The requester was given what the old text conceals, so the new one conceals the same.
    obtain rfl : text = plaintext := hconceals.eq_of_decryptLocal (hrequester pair hpair) hlocal
    refine ⟨reencoded, hfound, ?_⟩
    exact conceals_of_encryptSecret (project.replaceRecipients members services) htrips hshared
      hknows h.sharedKeyId hencrypt

end Tracks

/-! ## Steps and runs -/

section Run

variable {σ : Type} {repository : ProjectRepository (StateM σ)} {kept : σ → Project → Prop}
  {encryption : ShareEncryption} {shared : KeyPair} {parties : Set KeyPair}

theorem context_eq_ofOutcome (requester : Option KeyPair) (mediated : Bool)
    (timeout : Milliseconds) :
    (⟨requester, if mediated then some (LocalMediator.toMediator ⟨shared, encryption⟩) else none,
      timeout⟩ : DecryptContext (StateM σ))
      = .ofOutcome requester
        (if mediated then some (LocalMediator.outcome ⟨shared, encryption⟩) else none) timeout := by
  cases mediated with
  | false => rfl
  | true => rfl

/-- **One step.** An operation that fails leaves the project, and one that succeeds does to it what
it does to the ledger. -/
theorem Operation.perform_settles (hkeeps : repository.Keeps kept)
    (htrips : ∀ key, encryption.RoundTrips key) (hshared : shared ∈ parties) {op : Operation}
    (hhonest : op.Honest parties) {state : σ} {project : Project} {ledger : Ledger}
    (hkept : kept state project) (htracks : Tracks encryption shared parties project ledger) :
    Settles kept (op.perform ⟨repository, ⟨encryption, Shamir.scheme⟩⟩ shared) state project
      fun changed ↦ Tracks encryption shared parties changed (op.record ledger) := by
  cases op with
  | set entropy name plaintext format lookup =>
    rw [perform, ProjectSecrets.set]
    refine Settles.imp (ProjectSecrets.edit_settles hkeeps hkept rfl) fun changed hok ↦ ?_
    exact htracks.withSecret htrips hshared hhonest hok
  | remove name =>
    rw [perform, ProjectSecrets.remove]
    refine Settles.imp (ProjectSecrets.edit_settles hkeeps hkept rfl) fun changed hok ↦ ?_
    exact htracks.withoutSecret hok
  | rotate entropy members services requester mediated timeout lookup =>
    rw [perform, ProjectSecrets.rotate, context_eq_ofOutcome]
    refine Settles.imp (ProjectSecrets.edit_settles hkeeps hkept
      (Project.rotated_ofOutcome entropy members services)) fun changed hok ↦ ?_
    exact htracks.rotatedWith htrips hshared hhonest.1 hhonest.2 hok

theorem tracks_play (hkeeps : repository.Keeps kept) (htrips : ∀ key, encryption.RoundTrips key)
    (hshared : shared ∈ parties) {ops : List Operation} (hhonest : ∀ op ∈ ops, op.Honest parties)
    {state : σ} {project : Project} {ledger : Ledger} (hkept : kept state project)
    (htracks : Tracks encryption shared parties project ledger) :
    ∃ final,
      kept (play ⟨repository, ⟨encryption, Shamir.scheme⟩⟩ shared ops state ledger).1 final ∧
      Tracks encryption shared parties final
        (play ⟨repository, ⟨encryption, Shamir.scheme⟩⟩ shared ops state ledger).2 := by
  induction ops generalizing state project ledger with
  | nil => exact ⟨project, hkept, htracks⟩
  | cons op ops ih =>
    obtain ⟨hop, hops⟩ := List.forall_mem_cons.mp hhonest
    rw [play]
    rcases Operation.perform_settles hkeeps htrips hshared hop hkept htracks with
      ⟨error, after, hrun, hafter⟩ | ⟨changed, after, hrun, hafter, hchanged⟩
    · rw [hrun]
      exact ih hops hafter htracks
    · rw [hrun]
      exact ih hops hafter hchanged

end Run

/-! ## Simulation -/

/-- What is read from the project agrees with the ledger, whoever reads with the help of the shared
key's holder. -/
structure Simulates {σ : Type} (secrets : ProjectSecrets (StateM σ)) (shared : KeyPair)
    (parties : Set KeyPair) (state : σ) (ledger : Ledger) : Prop where
  /-- The names are those of the ledger, in order. -/
  names : ∃ names, secrets.names.run.run state = (.ok names, state) ∧ names.Pairwise (· < ·) ∧
    ∀ name, name ∈ names ↔ ledger.texts name ≠ none
  /-- Other names are not found, in any context. -/
  absent : ∀ name, ledger.texts name = none → ∀ context,
    (secrets.get name context).run.run state = (.error (.notFound name), state)
  /-- Recipients read the plaintexts. -/
  present : ∀ name plaintext, ledger.texts name = some plaintext → ∀ pair ∈ parties,
    pair.id ∈ ledger.recipients → ∀ timeout,
      (secrets.get name
        ⟨some pair, some (LocalMediator.toMediator ⟨shared, secrets.envelope.encryption⟩),
          timeout⟩).run.run state = (.ok plaintext, state)
  /-- The shared key is not a recipient of anything. -/
  fresh : ∀ name, ledger.texts name ≠ none → shared.id ∉ ledger.recipients
  /-- Whoever is not a recipient has no shard. -/
  hidden : ∀ name, ledger.texts name ≠ none → ∀ pair : KeyPair, pair.id ∉ ledger.recipients →
    ∀ timeout,
      (secrets.get name
        ⟨some pair, some (LocalMediator.toMediator ⟨shared, secrets.envelope.encryption⟩),
          timeout⟩).run.run state = (.error (.envelope name (.noMatchingShard pair.id)), state)

section Simulation

variable {σ : Type} {repository : ProjectRepository (StateM σ)} {kept : σ → Project → Prop}
  {encryption : ShareEncryption} {shared : KeyPair} {parties : Set KeyPair}

theorem get_eq_of_tracks (hkeeps : repository.Keeps kept) {state : σ} {project : Project}
    {ledger : Ledger} (hkept : kept state project)
    (htracks : Tracks encryption shared parties project ledger) {name encoded : String}
    (hname : project.secrets.get? name = some encoded) (pair : KeyPair) (timeout : Milliseconds) :
    ((⟨repository, ⟨encryption, Shamir.scheme⟩⟩ : ProjectSecrets (StateM σ)).get name ⟨some pair,
      some (LocalMediator.toMediator ⟨shared, encryption⟩), timeout⟩).run.run state
        = ((decryptLocal ⟨encryption, Shamir.scheme⟩ shared encoded pair timeout).mapError
          (.envelope name), state) := by
  refine (ProjectSecrets.get_eq hkeeps hkept hname (some pair)
    (some (LocalMediator.outcome ⟨shared, encryption⟩)) timeout).trans ?_
  rw [Project.decryptEntryWith, htracks.sharedKeyId]
  rfl

theorem simulates_of_tracks (hkeeps : repository.Keeps kept) {state : σ} {project : Project}
    {ledger : Ledger} (hkept : kept state project)
    (htracks : Tracks encryption shared parties project ledger) :
    Simulates ⟨repository, ⟨encryption, Shamir.scheme⟩⟩ shared parties state ledger := by
  have hpresent : ∀ name, ledger.texts name ≠ none → ∃ plaintext encoded,
      project.secrets.get? name = some encoded ∧
      Conceals encryption shared parties ledger.recipients plaintext encoded := by
    intro name hname
    obtain ⟨plaintext, hplaintext⟩ := Option.ne_none_iff_exists'.mp hname
    exact ⟨plaintext, htracks.present name plaintext hplaintext⟩
  refine ⟨⟨_, ProjectSecrets.names_eq hkeeps hkept, project.secrets.pairwise_names, ?_⟩, ?_, ?_,
    ?_, ?_⟩
  · intro name
    rw [NamedTexts.mem_names]
    constructor
    · exact fun h hnone ↦ h (htracks.absent name hnone)
    · intro h
      obtain ⟨-, encoded, hencoded, -⟩ := hpresent name h
      rw [hencoded]
      exact Option.some_ne_none encoded
  · intro name hname context
    exact ProjectSecrets.get_eq_notFound hkeeps hkept (htracks.absent name hname) context
  · intro name plaintext hname pair hpair hmem timeout
    obtain ⟨encoded, hencoded, hconceals⟩ := htracks.present name plaintext hname
    rw [get_eq_of_tracks hkeeps hkept htracks hencoded, hconceals.opens pair hpair hmem]
    rfl
  · intro name hname
    obtain ⟨plaintext, encoded, -, hconceals⟩ := hpresent name hname
    exact hconceals.fresh
  · intro name hname pair hmem timeout
    obtain ⟨plaintext, encoded, hencoded, hconceals⟩ := hpresent name hname
    rw [get_eq_of_tracks hkeeps hkept htracks hencoded, hconceals.refuses pair hmem]
    rfl

/-- **Simulation.** Start with a project for the shared key that has no secrets, and perform any
operations. What is then read from the project agrees with the ledger, in which the operations that
succeeded were recorded. -/
theorem simulates_play (hkeeps : repository.Keeps kept)
    (htrips : ∀ key, encryption.RoundTrips key) (hshared : shared ∈ parties) {state : σ}
    {project : Project} (hkept : kept state project) (hid : project.sharedKeyId = shared.id)
    (hempty : project.secrets = .empty) {ops : List Operation}
    (hhonest : ∀ op ∈ ops, op.Honest parties) :
    Simulates ⟨repository, ⟨encryption, Shamir.scheme⟩⟩ shared parties
      (play ⟨repository, ⟨encryption, Shamir.scheme⟩⟩ shared ops state
        ⟨fun _ ↦ none, project.memberKeyIds ++ project.serviceKeyIds⟩).1
      (play ⟨repository, ⟨encryption, Shamir.scheme⟩⟩ shared ops state
        ⟨fun _ ↦ none, project.memberKeyIds ++ project.serviceKeyIds⟩).2 := by
  obtain ⟨final, hfinal, htracks⟩ :=
    tracks_play hkeeps htrips hshared hhonest hkept (Tracks.create hid hempty)
  exact simulates_of_tracks hkeeps hfinal htracks

open KeyPair in
theorem simulates_play_labelled :
    let secrets : ProjectSecrets (StateM (Option Project)) :=
      ⟨.inMemory, ⟨.labelled, Shamir.scheme⟩⟩
    let ops : List Operation :=
      [.set (fun _ i ↦ UInt8.ofNat (7 * i)) "TOKEN" "s3cret" .simple
          (Envelope.directory publicKeys),
        .set (fun _ i ↦ UInt8.ofNat i) "1BAD" "unnamed" .pem (Envelope.directory publicKeys),
        .rotate (fun _ _ i ↦ UInt8.ofNat (5 * i)) [three.id] [] (some two) true 500
          (Envelope.directory publicKeys),
        .remove "GONE"]
    let run :=
      play secrets one ops (some (Project.create one.id [two.id] [])) ⟨fun _ ↦ none, [two.id]⟩
    Simulates secrets one {one, two, three} run.1 run.2 := by
  have hknows : ∀ pair ∈ ({one, two, three} : Set KeyPair),
      KnowsPair (Envelope.directory publicKeys) pair := by
    rintro pair (rfl | rfl | rfl)
    · exact Envelope.knowsPair_of_lookup (directory_publicKeys (.head _))
    · exact Envelope.knowsPair_of_lookup (directory_publicKeys (.tail _ (.head _)))
    · exact Envelope.knowsPair_of_lookup (directory_publicKeys (.tail _ (.tail _ (.head _))))
  have htwo : ∀ pair, some two = some pair → pair ∈ ({one, two, three} : Set KeyPair) := by
    rintro pair ⟨⟩
    exact .inr (.inl rfl)
  refine simulates_play ProjectRepository.inMemory_keeps ShareEncryption.labelled_roundTrips
    (.inl rfl) rfl rfl rfl ?_
  rw [List.forall_mem_cons, List.forall_mem_cons, List.forall_mem_cons, List.forall_mem_singleton]
  exact ⟨hknows, hknows, ⟨hknows, htwo⟩, trivial⟩

end Simulation

end ProjectSecrets

end DualSeal

import DualSeal.Proofs.Project.Rotation

/-!
# Rotations are all or nothing

A rotation either renews every text of the project and saves the result, or saves nothing and fails
with the fault of the first name, in the order of the names' bytes, whose text cannot be renewed,
after which the mediator is asked nothing any more (`rotate_allOrNothing`).

The repository is not expected to obey any law, except where it is said to keep a project.
-/

namespace DualSeal.Rotation

variable {σ : Type} {r : Rotation} {effect : MediatorRequest → σ → σ} {project : Project}

/-! ## How a rotation goes -/

section Call

variable {secrets : ProjectSecrets (StateM σ)} {state loaded final : σ}

theorem run_perform_of_load_error {fault : RepositoryError}
    (h : secrets.repository.load.run.run state = (.error fault, final)) :
    (r.perform effect secrets).run.run state = (.error (.repository fault), final) :=
  run_bind_error _ (run_adapt ProjectError.repository h)

theorem run_perform_of_load (h : secrets.repository.load.run.run state = (.ok project, loaded)) :
    (r.perform effect secrets).run.run state
      = (project.reencrypt secrets.envelope r.entropy (r.context effect) r.lookup 0
          project.secrets.entries (project.replaceRecipients r.members r.services) >>= fun rotated ↦
            (secrets.repository.save rotated).adapt ProjectError.repository).run.run loaded :=
  run_bind_ok _ (run_adapt ProjectError.repository h)

/-- With entries that can be renewed, what comes of the call comes of saving. -/
theorem run_perform_of_allRenewable
    (h : secrets.repository.load.run.run state = (.ok project, loaded))
    (hall : r.AllRenewable secrets.envelope project) :
    ∃ rotated outcome final, r.Rotates secrets.envelope project rotated ∧
      (secrets.repository.save rotated).run.run
          (r.after effect project project.secrets.entries loaded) = (outcome, final) ∧
      (r.perform effect secrets).run.run state = (outcome.mapError .repository, final) := by
  obtain ⟨rotated, hrotates, hok⟩ := exists_rotates hall
  have hrun := @run_reencrypt_of_renews σ r effect secrets.envelope project _ 0 _ loaded
    (allRenewable_iff.mp hall)
  rw [hok] at hrun
  rw [run_perform_of_load h, run_bind_ok _ hrun]
  exact ⟨rotated, _, _, hrotates, rfl, run_adapt _ rfl⟩

/-- Without, there is a first entry that cannot be renewed, and nothing comes behind it. -/
theorem run_perform_of_not_allRenewable
    (h : secrets.repository.load.run.run state = (.ok project, loaded))
    (hall : ¬ r.AllRenewable secrets.envelope project) :
    ∃ i error, r.FailsFirst secrets.envelope project i error ∧
      (r.perform effect secrets).run.run state
        = (.error error, r.after effect project (project.secrets.entries.take (i + 1)) loaded) := by
  rw [allRenewable_iff] at hall
  obtain ⟨i, name, encoded, error, hi, hbefore, hfault⟩ := Project.exists_fault_of_not_renews hall
  rw [run_perform_of_load h]
  refine ⟨i, error, ⟨⟨name, encoded, hi, ?_⟩, ?_⟩,
    run_bind_error _ (run_reencrypt_of_fault loaded hi hbefore hfault)⟩
  · rw [Nat.zero_add] at hfault
    exact fails_of_renew hfault
  · intro k hk other old hother
    have htake : (project.secrets.entries.take i)[k]? = some (other, old) := by
      rw [List.getElem?_take_of_lt hk, hother]
    obtain ⟨text, htext⟩ := hbefore k other old htake
    rw [Nat.zero_add] at htext
    exact renewable_iff.mpr ⟨text, htext⟩

/-- **How a rotation goes.** Loading fails, or there is a first entry that cannot be renewed, or all
are renewed and the project is handed over to be saved. -/
theorem run_perform_cases (secrets : ProjectSecrets (StateM σ)) (r : Rotation)
    (effect : MediatorRequest → σ → σ) (state : σ) :
    (∃ fault final, secrets.repository.load.run.run state = (.error fault, final) ∧
      (r.perform effect secrets).run.run state = (.error (.repository fault), final)) ∨
    ∃ project loaded, secrets.repository.load.run.run state = (.ok project, loaded) ∧
      ((∃ i error, r.FailsFirst secrets.envelope project i error ∧
        (r.perform effect secrets).run.run state
          = (.error error,
            r.after effect project (project.secrets.entries.take (i + 1)) loaded)) ∨
      r.AllRenewable secrets.envelope project ∧
        ∃ rotated outcome final, r.Rotates secrets.envelope project rotated ∧
          (secrets.repository.save rotated).run.run
              (r.after effect project project.secrets.entries loaded) = (outcome, final) ∧
          (r.perform effect secrets).run.run state = (outcome.mapError .repository, final)) := by
  cases hload : secrets.repository.load.run.run state with
  | mk outcome loaded =>
    cases outcome with
    | error fault => exact .inl ⟨fault, loaded, rfl, run_perform_of_load_error hload⟩
    | ok project =>
      refine .inr ⟨project, loaded, rfl, ?_⟩
      by_cases hall : r.AllRenewable secrets.envelope project
      · exact .inr ⟨hall, run_perform_of_allRenewable hload hall⟩
      · exact .inl (run_perform_of_not_allRenewable hload hall)

theorem kept_after {kept : σ → Project → Prop} {current : Project}
    (heffect : ∀ request state, kept state current → kept (effect request state) current)
    (entries : List (String × String)) (h : kept state current) :
    kept (r.after effect project entries state) current := by
  rw [after]
  induction entries.filterMap (fun entry ↦ r.request? project entry.2) generalizing state with
  | nil => exact h
  | cons request requests ih => exact ih (heffect request state h)

/-! ## Success and failure -/

/-- A rotation succeeds exactly when loading does, all entries can be renewed, and the renewed
project is saved. -/
theorem run_perform_eq_ok_iff :
    (r.perform effect secrets).run.run state = (.ok (), final)
      ↔ ∃ project loaded rotated,
        secrets.repository.load.run.run state = (.ok project, loaded) ∧
        r.AllRenewable secrets.envelope project ∧ r.Rotates secrets.envelope project rotated ∧
        (secrets.repository.save rotated).run.run
          (r.after effect project project.secrets.entries loaded) = (.ok (), final) := by
  constructor
  · intro hrun
    rcases run_perform_cases secrets r effect state with
      ⟨fault, last, hload, h⟩ | ⟨project, loaded, hload, ⟨i, error, -, h⟩ |
        ⟨hall, rotated, outcome, last, hrotates, hsave, h⟩⟩
    · rw [h] at hrun
      cases hrun
    · rw [h] at hrun
      cases hrun
    · rw [h] at hrun
      cases outcome with
      | error fault => cases hrun
      | ok done =>
        cases hrun
        exact ⟨project, loaded, rotated, hload, hall, hrotates, hsave⟩
  · rintro ⟨project, loaded, rotated, hload, hall, hrotates, hsave⟩
    obtain ⟨renewed, outcome, last, hrenewed, hrenewedSave, hrun⟩ :=
      @run_perform_of_allRenewable σ r effect project secrets state loaded hload hall
    -- There is only one project whose texts are renewed, so this is the one that was saved.
    obtain rfl := hrenewed.unique hrotates
    rw [hsave] at hrenewedSave
    cases hrenewedSave
    exact hrun

/-- A rotation that fails has saved nothing, except that saving itself may have failed. -/
theorem of_run_perform_eq_error {error : ProjectError}
    (hrun : (r.perform effect secrets).run.run state = (.error error, final)) :
    (∃ fault, secrets.repository.load.run.run state = (.error fault, final) ∧
      error = .repository fault) ∨
    ∃ project loaded, secrets.repository.load.run.run state = (.ok project, loaded) ∧
      ((∃ i, r.FailsFirst secrets.envelope project i error ∧
        final = r.after effect project (project.secrets.entries.take (i + 1)) loaded) ∨
      ∃ rotated fault, r.AllRenewable secrets.envelope project ∧
        r.Rotates secrets.envelope project rotated ∧
        (secrets.repository.save rotated).run.run
          (r.after effect project project.secrets.entries loaded) = (.error fault, final) ∧
        error = .repository fault) := by
  rcases run_perform_cases secrets r effect state with
    ⟨fault, last, hload, h⟩ | ⟨project, loaded, hload, ⟨i, error, hfails, h⟩ |
      ⟨hall, rotated, outcome, last, hrotates, hsave, h⟩⟩
  · rw [h] at hrun
    cases hrun
    exact .inl ⟨fault, hload, rfl⟩
  · rw [h] at hrun
    cases hrun
    exact .inr ⟨project, loaded, hload, .inl ⟨i, hfails, rfl⟩⟩
  · rw [h] at hrun
    cases outcome with
    | ok done => cases hrun
    | error fault =>
      cases hrun
      exact .inr ⟨project, loaded, hload, .inr ⟨rotated, fault, hall, hrotates, hsave, rfl⟩⟩

/-- A rotation that fails leaves the project that is kept. -/
theorem kept_of_run_perform_eq_error {kept : σ → Project → Prop} {error : ProjectError}
    (hkeeps : secrets.repository.Keeps kept)
    (heffect : ∀ request state, kept state project → kept (effect request state) project)
    (hkept : kept state project)
    (hrun : (r.perform effect secrets).run.run state = (.error error, final)) :
    kept final project := by
  have hloadKept := hkeeps.load hkept
  rcases of_run_perform_eq_error hrun with
    ⟨fault, hload, -⟩ | ⟨found, loaded, hload, ⟨i, -, rfl⟩ | ⟨rotated, fault, -, -, hsave, -⟩⟩
  · rw [hloadKept] at hload
    cases hload
  · rw [hloadKept] at hload
    cases hload
    exact kept_after heffect _ hkept
  · rw [hloadKept] at hload
    cases hload
    have hafter := @kept_after σ r effect project state kept project heffect
      project.secrets.entries hkept
    rcases hkeeps.save hafter rotated with ⟨last, hsaved, -⟩ | ⟨other, last, hsaved, hlast⟩
    · rw [hsaved] at hsave
      cases hsave
    · rw [hsaved] at hsave
      cases hsave
      exact hlast

end Call

/-! ## All or nothing -/

theorem pairwise_encodeString (project : Project) :
    project.secrets.entries.Pairwise fun a b ↦
      Utf8.encodeString a.1 < Utf8.encodeString b.1 :=
  project.secrets.sorted.imp Utf8.encodeString_lt_encodeString_iff.mpr

/-- **All or nothing.** A rotation succeeds exactly when the project is loaded, all of its texts
decrypt under its shared key and are encrypted for the new recipients, all of its names are names
for variables, and the project with these texts is saved.

It fails when loading does, or with the fault of the first name, in the order of bytes, that does
not go through; the mediator is then asked for what comes up to that name, nothing is asked for
names behind it, and nothing else happens after loading. Or it fails when saving does. So if the
repository keeps a project, and the mediator's calls leave it there, a rotation that fails does. -/
theorem rotate_allOrNothing (secrets : ProjectSecrets (StateM σ)) (r : Rotation)
    (effect : MediatorRequest → σ → σ) (state : σ) :
    (∀ final, (r.perform effect secrets).run.run state = (.ok (), final)
      ↔ ∃ project loaded rotated,
        secrets.repository.load.run.run state = (.ok project, loaded) ∧
        r.AllRenewable secrets.envelope project ∧ r.Rotates secrets.envelope project rotated ∧
        (secrets.repository.save rotated).run.run
          (r.after effect project project.secrets.entries loaded) = (.ok (), final)) ∧
    (∀ error final, (r.perform effect secrets).run.run state = (.error error, final) →
      (∃ fault, secrets.repository.load.run.run state = (.error fault, final) ∧
        error = .repository fault) ∨
      ∃ project loaded, secrets.repository.load.run.run state = (.ok project, loaded) ∧
        ((∃ i, r.FailsFirst secrets.envelope project i error ∧
          (project.secrets.entries.Pairwise fun a b ↦
            Utf8.encodeString a.1 < Utf8.encodeString b.1) ∧
          final = r.after effect project (project.secrets.entries.take (i + 1)) loaded) ∨
        ∃ rotated fault, r.AllRenewable secrets.envelope project ∧
          r.Rotates secrets.envelope project rotated ∧
          (secrets.repository.save rotated).run.run
            (r.after effect project project.secrets.entries loaded) = (.error fault, final) ∧
          error = .repository fault)) ∧
    ∀ kept project, secrets.repository.Keeps kept →
      (∀ request state, kept state project → kept (effect request state) project) →
      kept state project → ∀ error final,
        (r.perform effect secrets).run.run state = (.error error, final) → kept final project := by
  refine ⟨fun final ↦ run_perform_eq_ok_iff, fun error final hrun ↦ ?_, ?_⟩
  · rcases of_run_perform_eq_error hrun with
      hload | ⟨project, loaded, hload, ⟨i, hfails, hfinal⟩ | hsave⟩
    · exact .inl hload
    · exact .inr ⟨project, loaded, hload,
        .inl ⟨i, hfails, pairwise_encodeString project, hfinal⟩⟩
    · exact .inr ⟨project, loaded, hload, .inr hsave⟩
  · intro kept project hkeeps heffect hkept error final hrun
    exact kept_of_run_perform_eq_error hkeeps heffect hkept hrun

open KeyPair in
/-- A secret changes hands. -/
theorem rotate_allOrNothing_labelled :
    let secrets : ProjectSecrets (StateM (Option Project)) :=
      ⟨.inMemory, ⟨.labelled, Shamir.scheme⟩⟩
    let r : Rotation := ⟨fun _ _ i ↦ UInt8.ofNat (5 * i), [three.id], [], some two,
      some (LocalMediator.outcome ⟨one, .labelled⟩), 500, Envelope.directory publicKeys⟩
    ∃ text rotated,
      secrets.envelope.encryptSecret (fun _ i ↦ UInt8.ofNat (7 * i))
        ⟨"s3cret", one.id, [two.id], .simple⟩ (Envelope.directory publicKeys) = .ok text ∧
      (r.perform (fun _ state ↦ state) secrets).run.run
        (some ⟨one.id, [two.id], [], .ofList [("TOKEN", text)]⟩) = (.ok (), some rotated) ∧
      rotated.secrets.names = ["TOKEN"] := by
  intro secrets r
  have hone : Envelope.directory publicKeys one.id = .ok (some one.publicKey) :=
    directory_publicKeys (.head _)
  have htwo : Envelope.directory publicKeys two.id = .ok (some two.publicKey) :=
    directory_publicKeys (.tail _ (.head _))
  obtain ⟨text, hencrypt⟩ := exists_encryptSecret_labelled (.head _) (.tail _ (.head _))
    one_id_ne_two_id (show "s3cret" ≠ "" by decide) (fun _ i ↦ UInt8.ofNat (7 * i)) .simple
  obtain ⟨renewed, hrenewed⟩ := exists_encryptSecret_labelled (.head _)
    (.tail _ (.tail _ (.head _))) one_id_ne_three_id (show "s3cret" ≠ "" by decide) (r.entropy 0)
    (Secret.formatOf text)
  have hdecrypt : Envelope.decryptLocal secrets.envelope one text two 500 = .ok "s3cret" :=
    Envelope.decryptLocal_encryptSecret hencrypt
      (fun _ _ key _ ↦ ShareEncryption.labelled_roundTrips key) rfl (.head _)
      (Envelope.knowsPair_of_lookup hone) (Envelope.knowsPair_of_lookup htwo)
      (ShareEncryption.labelled_roundTrips _) (ShareEncryption.labelled_roundTrips _)
  have hall : r.AllRenewable secrets.envelope
      ⟨one.id, [two.id], [], .ofList [("TOKEN", text)]⟩ := by
    intro k name encoded hk
    obtain rfl : k = 0 := by
      cases k with
      | zero => rfl
      | succ k => cases hk
    cases hk
    exact ⟨"s3cret", renewed, hdecrypt, hrenewed, by decide⟩
  obtain ⟨rotated, hrotates, -⟩ := exists_rotates hall
  refine ⟨text, rotated, hencrypt, ?_, hrotates.names⟩
  exact ((rotate_allOrNothing secrets r (fun _ state ↦ state) _).1 _).mpr
    ⟨_, _, rotated, rfl, hall, hrotates, rfl⟩

end DualSeal.Rotation

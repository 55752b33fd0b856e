import Mathlib.Data.List.Forall2

/-!
# Outcomes

What it takes for a computation that may fail to succeed. Every stage of reading and sealing is a
chain of such computations, and these equations take the chain apart.
-/

namespace DualSeal

variable {α β ε ε' : Type}

@[simp] theorem ok_bind (a : α) (f : α → Except ε β) : (Except.ok a >>= f) = f a := rfl

@[simp] theorem error_bind (e : ε) (f : α → Except ε β) : (Except.error e >>= f) = .error e := rfl

theorem bind_eq_ok_iff {x : Except ε α} {f : α → Except ε β} {b : β} :
    (x >>= f) = .ok b ↔ ∃ a, x = .ok a ∧ f a = .ok b := by
  cases x with
  | error e => simp
  | ok a => simp

theorem map_eq_ok_iff {x : Except ε α} {f : α → β} {b : β} :
    (f <$> x) = .ok b ↔ ∃ a, x = .ok a ∧ f a = b := by
  cases x with
  | error e => exact ⟨nofun, nofun⟩
  | ok a => exact ⟨fun h ↦ ⟨a, rfl, Except.ok.inj h⟩, fun ⟨_, h, hb⟩ ↦ by cases h; rw [← hb]; rfl⟩

theorem map_eq_error_iff {x : Except ε α} {f : α → β} {e : ε} :
    (f <$> x) = .error e ↔ x = .error e := by
  cases x with
  | error e' => exact ⟨fun h ↦ congrArg Except.error (Except.error.inj h), fun h ↦ h ▸ rfl⟩
  | ok a => exact ⟨nofun, nofun⟩

theorem mapError_eq_ok_iff {x : Except ε α} {f : ε → ε'} {a : α} :
    x.mapError f = .ok a ↔ x = .ok a := by
  cases x with
  | error e => exact ⟨nofun, nofun⟩
  | ok b => exact Iff.of_eq (by rw [Except.mapError, Except.ok.injEq, Except.ok.injEq])

/-- Doing something for every item of a list succeeds when it does for each. -/
theorem mapM_eq_ok_iff {f : α → Except ε β} {items : List α} {results : List β} :
    items.mapM f = .ok results ↔ List.Forall₂ (fun a b ↦ f a = .ok b) items results := by
  induction items generalizing results with
  | nil =>
    rw [List.forall₂_nil_left_iff, eq_comm]
    exact ⟨fun h ↦ Except.ok.inj h, congrArg Except.ok⟩
  | cons a items ih =>
    rw [List.mapM_cons, bind_eq_ok_iff, List.forall₂_cons_left_iff]
    constructor
    · rintro ⟨b, hb, h⟩
      obtain ⟨rest, hrest, h⟩ := bind_eq_ok_iff.mp h
      exact ⟨b, rest, hb, ih.mp hrest, (Except.ok.inj h).symm⟩
    · rintro ⟨b, rest, hb, hrest, rfl⟩
      exact ⟨b, hb, bind_eq_ok_iff.mpr ⟨rest, ih.mpr hrest, rfl⟩⟩

/-! ## Outcomes of actions -/

section Actions

variable {m : Type → Type} [Monad m] [LawfulMonad m]

theorem mk_pure_ok_bind (a : α) (f : α → ExceptT ε m β) :
    (ExceptT.mk (pure (.ok a)) >>= f) = f a :=
  pure_bind (m := m) (Except.ok a) _

theorem mk_pure_error_bind (e : ε) (f : α → ExceptT ε m β) :
    (ExceptT.mk (pure (.error e)) >>= f) = ExceptT.mk (pure (.error e)) :=
  pure_bind (m := m) (Except.error e) _

end Actions

/-! ## Actions on a state -/

section States

variable {σ : Type} {state after : σ}

theorem run_bind_ok {x : ExceptT ε (StateM σ) α} {a : α} (f : α → ExceptT ε (StateM σ) β)
    (h : x.run.run state = (.ok a, after)) : (x >>= f).run.run state = (f a).run.run after := by
  rw [ExceptT.run_bind, StateT.run_bind, h]
  rfl

theorem run_bind_error {x : ExceptT ε (StateM σ) α} {e : ε} (f : α → ExceptT ε (StateM σ) β)
    (h : x.run.run state = (.error e, after)) : (x >>= f).run.run state = (.error e, after) := by
  rw [ExceptT.run_bind, StateT.run_bind, h]
  rfl

/-- An action whose failure is looked at like any other outcome. -/
theorem run_outcome_bind {x : ExceptT ε (StateM σ) α} {outcome : Except ε α}
    (f : Except ε α → ExceptT ε' (StateM σ) β) (h : x.run.run state = (outcome, after)) :
    (((liftM x.run : ExceptT ε' (StateM σ) (Except ε α))) >>= f).run.run state
      = (f outcome).run.run after := by
  have hlift : (liftM x.run : ExceptT ε' (StateM σ) (Except ε α)).run.run state
      = (.ok outcome, after) := by
    change (Except.ok (x.run.run state).1, (x.run.run state).2) = _
    rw [h]
  exact run_bind_ok f hlift

theorem run_adapt {x : ExceptT ε (StateM σ) α} {outcome : Except ε α} (f : ε → ε')
    (h : x.run.run state = (outcome, after)) :
    (x.adapt f).run.run state = (outcome.mapError f, after) := by
  have hrun : (x.adapt f).run.run state = (Except.mapError f <$> x.run).run state := rfl
  rw [hrun, StateT.run_map, h]
  rfl

theorem run_getThe (state : σ) :
    (getThe σ : ExceptT ε (StateM σ) σ).run.run state = (.ok state, state) := rfl

end States

end DualSeal

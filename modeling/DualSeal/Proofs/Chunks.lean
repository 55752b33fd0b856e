import DualSeal.Bytes

/-!
# Runs of a list

A list is cut into runs of one size for the lines of a block of base64, for the blocks of a cipher
and for the words of a key. Put together, the runs are the list, and they all have that size if it
divides the length. The bound on their number that the recursion runs on is never met.
-/

namespace DualSeal

variable {α : Type} {size fuel : Nat} {items run : List α}

theorem chunksWithin_nil (size fuel : Nat) : chunksWithin size fuel ([] : List α) = [] := by
  cases fuel <;> rfl

theorem length_drop_le (hsize : 0 < size) {a : α} (h : (a :: items).length ≤ fuel + 1) :
    ((a :: items).drop size).length ≤ fuel := by
  rw [List.length_drop]
  omega

theorem flatten_chunksWithin (hsize : 0 < size) (hfuel : items.length ≤ fuel) :
    (chunksWithin size fuel items).flatten = items := by
  induction fuel generalizing items with
  | zero =>
    rw [List.length_eq_zero_iff.mp (Nat.le_zero.mp hfuel)]
    rfl
  | succ fuel ih =>
    cases items with
    | nil => rfl
    | cons a items =>
      rw [chunksWithin, List.flatten_cons, ih (length_drop_le hsize hfuel), List.take_append_drop]

theorem mem_of_mem_chunksWithin {a : α} (hrun : run ∈ chunksWithin size fuel items)
    (ha : a ∈ run) : a ∈ items := by
  induction fuel generalizing items with
  | zero => cases hrun
  | succ fuel ih =>
    cases items with
    | nil => cases hrun
    | cons b items =>
      rw [chunksWithin] at hrun
      rcases List.mem_cons.mp hrun with rfl | hrun
      · exact List.mem_of_mem_take ha
      · exact List.mem_of_mem_drop (ih hrun)

/-! ## One run after the other -/

theorem chunksWithin_eq_chunks (hsize : 0 < size) (hfuel : items.length ≤ fuel) :
    chunksWithin size fuel items = chunks size items := by
  have hany : ∀ (f g : Nat) (items : List α), items.length ≤ f → items.length ≤ g →
      chunksWithin size f items = chunksWithin size g items := by
    intro f
    induction f with
    | zero =>
      intro g items hf _
      rw [List.length_eq_zero_iff.mp (Nat.le_zero.mp hf), chunksWithin_nil, chunksWithin_nil]
    | succ f ih =>
      intro g items hf hg
      cases items with
      | nil => rw [chunksWithin_nil, chunksWithin_nil]
      | cons a items =>
        obtain ⟨g, rfl⟩ : ∃ k, g = k + 1 := ⟨g - 1, by rw [List.length_cons] at hg; omega⟩
        rw [chunksWithin, chunksWithin,
          ih g _ (length_drop_le hsize hf) (length_drop_le hsize hg)]
  exact hany fuel items.length items hfuel (Nat.le_refl _)

@[simp] theorem chunks_nil (size : Nat) : chunks size ([] : List α) = [] := rfl

theorem chunks_of_ne_nil (hsize : 0 < size) (hne : items ≠ []) :
    chunks size items = items.take size :: chunks size (items.drop size) := by
  obtain ⟨a, items, rfl⟩ := List.exists_cons_of_ne_nil hne
  rw [← chunksWithin_eq_chunks hsize (length_drop_le hsize (Nat.le_refl _))]
  rfl

/-- What holds of the empty list, and of a list if it holds behind the first run, holds of all. -/
theorem chunks_induction {motive : List α → Prop} (hsize : 0 < size) (nil : motive [])
    (run : ∀ items, items ≠ [] → motive (items.drop size) → motive items) (items : List α) :
    motive items := by
  by_cases hne : items = []
  · exact hne ▸ nil
  · exact run items hne (chunks_induction hsize nil run (items.drop size))
termination_by items.length
decreasing_by
  have hpos : 0 < items.length := List.length_pos_iff.mpr hne
  rw [List.length_drop]
  omega

/-! ## Runs of the same size -/

theorem length_of_mem_chunks (hsize : 0 < size) (hdvd : size ∣ items.length)
    (hrun : run ∈ chunks size items) : run.length = size := by
  induction items using chunks_induction hsize with
  | nil => cases hrun
  | run items hne ih =>
    have hle : size ≤ items.length := Nat.le_of_dvd (List.length_pos_iff.mpr hne) hdvd
    rw [chunks_of_ne_nil hsize hne] at hrun
    rcases List.mem_cons.mp hrun with rfl | hrun
    · exact List.length_take_of_le hle
    · refine ih ?_ hrun
      rw [List.length_drop]
      exact Nat.dvd_sub hdvd (Nat.dvd_refl size)

theorem length_flatten_of_forall {runs : List (List α)} (h : ∀ run ∈ runs, run.length = size) :
    runs.flatten.length = runs.length * size := by
  rw [List.length_flatten, List.map_eq_replicate_iff.mpr h, List.sum_replicate_nat]

theorem length_chunks (hsize : 0 < size) (hdvd : size ∣ items.length) :
    (chunks size items).length * size = items.length := by
  have hlengths : ∀ run ∈ chunks size items, run.length = size :=
    fun _ ↦ length_of_mem_chunks hsize hdvd
  rw [← length_flatten_of_forall hlengths, chunks, flatten_chunksWithin hsize (Nat.le_refl _)]

end DualSeal

import Webapp.Data.Memory

namespace Webapp.Data

/-! A chain of ranges in one memory: cells are added behind its end and taken from
its front, and a range stays in the chain until all of it was taken.
-/

variable {α : Type} {memory : Memory α} {chain : List (Nat × Nat)} {bound : Nat}

/-- The cells of all ranges, one range after the other. -/
def Memory.ranges (memory : Memory α) (chain : List (Nat × Nat)) : List α :=
  chain.flatMap fun range => memory.window range.1 (range.2 - range.1)

/-- Takes `count` cells from the front. -/
def takeFront : List (Nat × Nat) → Nat → List (Nat × Nat)
  | [], _ => []
  | range :: chain, count =>
      if count = 0 then range :: chain
      else if range.2 - range.1 ≤ count then (range.2, range.2) :: takeFront chain (count - (range.2 - range.1))
      else (range.1 + count, range.2) :: chain

/-- The chain without the ranges at its front that have nothing left. -/
def dropTaken (chain : List (Nat × Nat)) : List (Nat × Nat) := chain.dropWhile fun range => range.1 == range.2

def Within (bound : Nat) (chain : List (Nat × Nat)) : Prop :=
  ∀ range ∈ chain, range.1 ≤ range.2 ∧ range.2 ≤ bound

@[simp] theorem Memory.ranges_nil : memory.ranges [] = [] := rfl

@[simp] theorem Memory.ranges_append (first second : List (Nat × Nat)) :
    memory.ranges (first ++ second) = memory.ranges first ++ memory.ranges second := List.flatMap_append

theorem Memory.ranges_singleton (first last : Nat) :
    memory.ranges [(first, last)] = memory.window first (last - first) := by
  simp [ranges]

@[simp] theorem within_nil : Within bound [] := by
  simp [Within]

theorem Within.mono {larger : Nat} (within : Within bound chain) (le : bound ≤ larger) : Within larger chain := by
  intro range member
  obtain ⟨ordered, inside⟩ := within range member
  exact ⟨ordered, Nat.le_trans inside le⟩

theorem Within.append {more : List (Nat × Nat)} (first : Within bound chain) (second : Within bound more) :
    Within bound (chain ++ more) := by
  intro range member
  rcases List.mem_append.mp member with left | right
  · exact first range left
  · exact second range right

theorem Within.dropTaken (within : Within bound chain) : Within bound (dropTaken chain) := by
  intro range member
  exact within range ((List.dropWhile_sublist _).mem member)

/-- What is stored behind the chain does not touch it. -/
theorem Memory.ranges_store_frame {position : Nat} (within : Within position chain) (values : List α) :
    (memory.store position values).ranges chain = memory.ranges chain := by
  apply List.flatMap_congr
  intro range member
  obtain ⟨ordered, inside⟩ := within range member
  exact window_store_frame memory (Or.inl (by omega))

theorem Memory.ranges_dropTaken : memory.ranges (dropTaken chain) = memory.ranges chain := by
  induction chain with
  | nil => rfl
  | cons range chain ih =>
      rw [dropTaken, List.dropWhile_cons]
      split
      · rename_i taken
        have nothing : range.2 - range.1 = 0 := by
          have same : range.1 = range.2 := by simpa using taken
          omega
        rw [← dropTaken, ih]
        simp [ranges, nothing]
      · rfl

theorem Within.takeFront {count : Nat} (within : Within bound chain) : Within bound (takeFront chain count) := by
  induction chain generalizing count with
  | nil => exact within
  | cons range chain ih =>
      obtain ⟨first, rest⟩ := List.forall_mem_cons.mp within
      rw [Data.takeFront]
      split
      · exact within
      · split
        · exact List.forall_mem_cons.mpr ⟨⟨Nat.le_refl _, first.2⟩, ih rest⟩
        · exact List.forall_mem_cons.mpr ⟨⟨by dsimp only; omega, first.2⟩, rest⟩

theorem Memory.ranges_takeFront (memory : Memory α) (count : Nat) :
    memory.ranges (takeFront chain count) = (memory.ranges chain).drop count := by
  induction chain generalizing count with
  | nil => simp [takeFront]
  | cons range chain ih =>
      have split_first : memory.ranges (range :: chain) =
          memory.window range.1 (range.2 - range.1) ++ memory.ranges chain := List.flatMap_cons
      rw [takeFront]
      split
      · rename_i none
        rw [none, List.drop_zero]
      · split
        · rename_i all
          rw [split_first, List.drop_append, List.drop_of_length_le (by simpa using all), window_length,
            List.nil_append, ← ih]
          simp [ranges]
        · rename_i some_left
          have cut : range.2 - range.1 = count + (range.2 - (range.1 + count)) := by omega
          rw [split_first, List.drop_append_of_le_length (by rw [window_length]; omega), cut, window_drop]
          simp [ranges]

/-- A chain with nothing in it is dropped as a whole. -/
theorem dropTaken_eq_nil (memory : Memory α) (within : Within bound chain) (nothing : memory.ranges chain = []) :
    dropTaken chain = [] := by
  induction chain with
  | nil => rfl
  | cons range chain ih =>
      obtain ⟨first, rest⟩ := List.forall_mem_cons.mp within
      obtain ⟨empty, later⟩ := List.append_eq_nil_iff.mp nothing
      have size := congrArg List.length empty
      rw [Memory.window_length, List.length_nil] at size
      rw [dropTaken, List.dropWhile_cons_of_pos (by simp; omega)]
      exact ih rest later

end Webapp.Data

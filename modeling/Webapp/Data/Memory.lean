import Mathlib

namespace Webapp.Data

/-! A memory block seen from its first cell.

Addresses past the end of the block are still addresses: a store that runs over
the end lands there instead of being lost, so a bound on an access is a
statement about its addresses and never a side condition of the model.
-/

/-- Contents of memory by distance from the start of a block. -/
def Memory (α : Type) := Nat → α

namespace Memory

variable {α : Type}

/-- The cells of `[start, start + count)`. -/
def window (memory : Memory α) (start count : Nat) : List α :=
  (List.range count).map fun index => memory (start + index)

def store (memory : Memory α) (start : Nat) (values : List α) : Memory α := fun address =>
  if start ≤ address then values.getD (address - start) (memory address) else memory address

def ofList (values : List α) (filler : α) : Memory α := fun address => values.getD address filler

@[simp] theorem window_length (memory : Memory α) (start count : Nat) :
    (memory.window start count).length = count := by
  simp [window]

@[simp] theorem window_zero (memory : Memory α) (start : Nat) : memory.window start 0 = [] := rfl

theorem window_getElem? (memory : Memory α) {start count index : Nat} (inside : index < count) :
    (memory.window start count)[index]? = some (memory (start + index)) := by
  simp [window, inside]

theorem ofList_window (values : List α) (filler : α) :
    (ofList values filler).window 0 values.length = values := by
  apply List.ext_getElem?
  intro index
  by_cases inside : index < values.length
  · rw [window_getElem? _ inside, List.getElem?_eq_getElem inside, Nat.zero_add]
    simp [ofList, inside]
  · rw [List.getElem?_eq_none (by simpa using inside), List.getElem?_eq_none (by simpa using inside)]

theorem window_congr {left right : Memory α} {start count : Nat}
    (same : ∀ address, start ≤ address → address < start + count → left address = right address) :
    left.window start count = right.window start count := by
  apply List.map_congr_left
  intro index member
  have inside : index < count := List.mem_range.mp member
  exact same (start + index) (by omega) (by omega)

theorem window_add (memory : Memory α) (start first second : Nat) :
    memory.window start (first + second) =
      memory.window start first ++ memory.window (start + first) second := by
  simp [window, List.range_add, Nat.add_assoc, Function.comp_def]

theorem window_take (memory : Memory α) {start count shorter : Nat} (within : shorter ≤ count) :
    (memory.window start count).take shorter = memory.window start shorter := by
  obtain ⟨rest, rfl⟩ := Nat.exists_eq_add_of_le within
  rw [window_add, List.take_left' (by simp)]

theorem window_drop (memory : Memory α) (start skipped count : Nat) :
    (memory.window start (skipped + count)).drop skipped = memory.window (start + skipped) count := by
  rw [window_add, List.drop_left' (by simp)]

@[simp] theorem store_nil (memory : Memory α) (start : Nat) : memory.store start [] = memory := by
  funext address
  simp [store]

theorem store_inside (memory : Memory α) {start index : Nat} {values : List α}
    (inside : index < values.length) : memory.store start values (start + index) = values[index] := by
  simp [store, List.getD_eq_getElem?_getD, inside]

theorem store_outside (memory : Memory α) {start address : Nat} {values : List α}
    (outside : address < start ∨ start + values.length ≤ address) :
    memory.store start values address = memory address := by
  rw [store]
  split
  · have beyond : values.length ≤ address - start := by omega
    simp [List.getD_eq_getElem?_getD, List.getElem?_eq_none beyond]
  · rfl

theorem window_store_self (memory : Memory α) (start : Nat) (values : List α) :
    (memory.store start values).window start values.length = values := by
  apply List.ext_getElem?
  intro index
  by_cases inside : index < values.length
  · rw [window_getElem? _ inside, store_inside _ inside, List.getElem?_eq_getElem inside]
  · rw [List.getElem?_eq_none (by simpa using inside), List.getElem?_eq_none (by simpa using inside)]

theorem window_store_frame (memory : Memory α) {start count position : Nat} {values : List α}
    (apart : start + count ≤ position ∨ position + values.length ≤ start) :
    (memory.store position values).window start count = memory.window start count :=
  window_congr fun address lower upper => store_outside memory (by omega)

theorem window_store_append (memory : Memory α) (start count : Nat) (values : List α) :
    (memory.store (start + count) values).window start (count + values.length) =
      memory.window start count ++ values := by
  rw [window_add, window_store_self, window_store_frame memory (Or.inl (Nat.le_refl _))]

section Cells

variable {unit place : Nat}

/-- The cell with the number `place`, in a block divided into cells of one size. -/
def cell (memory : Memory α) (unit place : Nat) : List α := memory.window (unit * place) unit

/-- Stores whole cells, one after the other. -/
def storeCells (memory : Memory α) (unit : Nat) (cells : List (Nat × List α)) : Memory α :=
  cells.foldl (fun memory cell => memory.store (unit * cell.1) cell.2) memory

theorem cell_store_self (memory : Memory α) {values : List α} (whole : values.length = unit) :
    (memory.store (unit * place) values).cell unit place = values := by
  rw [cell, ← whole]
  exact window_store_self _ _ _

theorem cell_store_other (memory : Memory α) {other : Nat} {values : List α} (whole : values.length = unit)
    (apart : other ≠ place) : (memory.store (unit * other) values).cell unit place = memory.cell unit place := by
  apply window_store_frame
  rw [whole, ← Nat.mul_succ, ← Nat.mul_succ]
  rcases Nat.lt_or_gt_of_ne apart with below | above
  · exact Or.inr (Nat.mul_le_mul_left unit below)
  · exact Or.inl (Nat.mul_le_mul_left unit above)

theorem storeCells_absent {memory : Memory α} {cells : List (Nat × List α)}
    (whole : ∀ cell ∈ cells, cell.2.length = unit) (absent : ∀ cell ∈ cells, cell.1 ≠ place) :
    (memory.storeCells unit cells).cell unit place = memory.cell unit place := by
  induction cells generalizing memory with
  | nil => rfl
  | cons first rest ih =>
      rw [List.forall_mem_cons] at whole absent
      rw [storeCells, List.foldl_cons, ← storeCells, ih whole.2 absent.2, cell_store_other memory whole.1 absent.1]

/-- However often a cell is stored, it holds the value that is always stored there. -/
theorem storeCells_unique {memory : Memory α} {cells : List (Nat × List α)} {values : List α}
    (whole : ∀ cell ∈ cells, cell.2.length = unit) (stored : (place, values) ∈ cells)
    (unique : ∀ cell ∈ cells, cell.1 = place → cell.2 = values) :
    (memory.storeCells unit cells).cell unit place = values := by
  induction cells generalizing memory with
  | nil => exact absurd stored List.not_mem_nil
  | cons first rest ih =>
      rw [List.forall_mem_cons] at whole unique
      rw [storeCells, List.foldl_cons, ← storeCells]
      by_cases again : ∃ cell ∈ rest, cell.1 = place
      · obtain ⟨cell, member, here⟩ := again
        have same : cell = (place, values) := Prod.ext here (unique.2 cell member here)
        exact ih whole.2 (same ▸ member) unique.2
      · have last : first = (place, values) := by
          rcases List.mem_cons.mp stored with same | later
          · exact same.symm
          · exact absurd ⟨_, later, rfl⟩ again
        subst last
        rw [storeCells_absent whole.2 fun cell member here => again ⟨cell, member, here⟩]
        exact cell_store_self memory whole.1

end Cells

end Memory

end Webapp.Data

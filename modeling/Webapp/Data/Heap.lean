import Mathlib

namespace Webapp.Data

/-! Blocks that are allocated and freed.  An address is never given out twice, so a
block that is used after its release is found missing.
-/

structure Heap (β : Type) where
  blocks : Nat → Option β
  next : Nat
  fresh : ∀ address, next ≤ address → blocks address = none

namespace Heap

variable {β : Type} {heap : Heap β} {address : Nat} {block : β}

def empty : Heap β := ⟨fun _ => none, 0, fun _ _ => rfl⟩

def allocate (heap : Heap β) (block : β) : Heap β where
  blocks := Function.update heap.blocks heap.next (some block)
  next := heap.next + 1
  fresh := by
    intro address above
    rw [Function.update_of_ne (by omega)]
    exact heap.fresh address (by omega)

theorem next_missing (heap : Heap β) : heap.blocks heap.next = none := heap.fresh _ (Nat.le_refl _)

theorem ne_next (found : heap.blocks address = some block) : address ≠ heap.next := by
  intro same
  rw [same, heap.next_missing] at found
  cases found

theorem bounded (found : heap.blocks address = some block) : address < heap.next := by
  by_contra above
  rw [heap.fresh address (by omega)] at found
  cases found

/-- Sets a block that is there, or takes it away. -/
def put (heap : Heap β) (address : Nat) (block : Option β) : Option (Heap β) :=
  if present : address < heap.next ∧ (heap.blocks address).isSome then
    some {
      blocks := Function.update heap.blocks address block
      next := heap.next
      fresh := by
        intro other above
        rw [Function.update_of_ne (by omega)]
        exact heap.fresh other above }
  else none

def free (heap : Heap β) (address : Nat) : Option (Heap β) := heap.put address none

def write (heap : Heap β) (address : Nat) (block : β) : Option (Heap β) := heap.put address (some block)

@[simp] theorem allocate_next (heap : Heap β) (block : β) : (heap.allocate block).blocks heap.next = some block := by
  simp [allocate]

theorem allocate_other (heap : Heap β) (block : β) (other : address ≠ heap.next) :
    (heap.allocate block).blocks address = heap.blocks address := by
  simp [allocate, other]

theorem allocate_found {added : β} (found : heap.blocks address = some block) :
    (heap.allocate added).blocks address = some block := by
  rw [allocate_other heap added (ne_next found), found]

theorem put_found (after : Option β) (found : heap.blocks address = some block) :
    ∃ next, heap.put address after = some next ∧ next.blocks = Function.update heap.blocks address after := by
  have present : address < heap.next ∧ (heap.blocks address).isSome := ⟨bounded found, by simp [found]⟩
  rw [put, dif_pos present]
  exact ⟨_, rfl, rfl⟩

theorem put_next {after : Option β} {next : Heap β} (changed : heap.put address after = some next) :
    next.next = heap.next := by
  rw [put] at changed
  split at changed
  · cases changed
    rfl
  · cases changed

theorem put_missing (after : Option β) (missing : heap.blocks address = none) : heap.put address after = none := by
  simp [put, missing]

end Heap

end Webapp.Data

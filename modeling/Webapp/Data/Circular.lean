import Mathlib

namespace Webapp.Data

/-! Circular buffers and circular lists.  A buffer is read from a place on and
around its end; a circular list is cut into the part between its front and its
tail and the part that is left over.
-/

section Buffers

variable {α : Type} {size start : Nat} {cells : Nat → Option α} {items : List α} {item : α}

/-- From `start` on, the cells hold the items, and the cells after them hold none. -/
def Circular (size : Nat) (cells : Nat → Option α) (start : Nat) (items : List α) : Prop :=
  ∀ index < size, cells ((start + index) % size) = items[index]?

theorem Circular.nil (size start : Nat) : Circular size (fun _ => (none : Option α)) start [] := by
  intro index _
  rfl

theorem circular_index_inj {first second : Nat} (inside : first < size) (insideSecond : second < size)
    (same : (start + first) % size = (start + second) % size) : first = second := by
  have cancelled : first % size = second % size := Nat.ModEq.add_left_cancel' start same
  rwa [Nat.mod_eq_of_lt inside, Nat.mod_eq_of_lt insideSecond] at cancelled

theorem Circular.vacant (holds : Circular size cells start items) (room : items.length < size) :
    cells ((start + items.length) % size) = none := by
  rw [holds _ room, List.getElem?_eq_none (Nat.le_refl _)]

theorem Circular.push (holds : Circular size cells start items) (room : items.length < size) (item : α) :
    Circular size (Function.update cells ((start + items.length) % size) (some item)) start (items ++ [item]) := by
  intro index inside
  by_cases last : index = items.length
  · rw [last, Function.update_self, List.getElem?_concat_length]
  · have apart : (start + index) % size ≠ (start + items.length) % size := fun same =>
      last (circular_index_inj inside room same)
    rw [Function.update_of_ne apart, holds index inside]
    rcases Nat.lt_or_gt_of_ne last with before | after
    · rw [List.getElem?_append_left before]
    · rw [List.getElem?_eq_none (Nat.le_of_lt after), List.getElem?_eq_none (by simpa using after)]

theorem Circular.first (holds : Circular size cells start (item :: items)) (room : items.length < size) :
    cells (start % size) = some item := by
  have head := holds 0 (by omega)
  simpa using head

theorem Circular.pop (holds : Circular size cells start (item :: items)) (room : items.length < size) :
    Circular size (Function.update cells (start % size) none) (start + 1) items := by
  intro index inside
  by_cases around : index + 1 = size
  · have wrapped : (start + 1 + index) % size = start % size := by
      rw [Nat.add_assoc, Nat.add_comm 1 index, around, Nat.add_mod_right]
    rw [wrapped, Function.update_self, List.getElem?_eq_none (by omega)]
  · have later : index + 1 < size := by omega
    have apart : (start + (index + 1)) % size ≠ (start + 0) % size := fun same => by
      have equal := circular_index_inj later (by omega) same
      omega
    rw [Nat.add_assoc, Nat.add_comm 1 index, Function.update_of_ne (by simpa using apart), holds _ later,
      List.getElem?_cons_succ]

theorem Circular.mod (holds : Circular size cells start items) : Circular size cells (start % size) items := by
  intro index inside
  rw [Nat.mod_add_mod]
  exact holds index inside

theorem Circular.window (holds : Circular size cells start items) {count : Nat} (known : count ≤ items.length)
    (fits : count ≤ size) :
    ((List.range count).map fun index => cells ((start + index) % size)) = (items.take count).map some := by
  apply List.ext_getElem?
  intro index
  by_cases inside : index < count
  · have found : index < items.length := by omega
    simp [inside, holds index (by omega), found]
  · simp [inside]

end Buffers

section Rings

variable {β : Type} {next : β → β} {front tail place : β} {used free rest : List β}

/-- Following `next` from the front one comes through the places in use, the last
of which is the tail, then through the free ones, and back to the front. -/
structure Ring (next : β → β) (front tail : β) (used free : List β) : Prop where
  chain : (used ++ (free ++ [front])).IsChain fun place following => next place = following
  first : used.head? = some front
  last : used.getLast? = some tail
  nodup : (used ++ free).Nodup

theorem Ring.singleton (closed : next place = place) : Ring next place place [place] [] where
  chain := by simpa using closed
  first := rfl
  last := rfl
  nodup := by simp

theorem Ring.front_mem (ring : Ring next front tail used free) : front ∈ used :=
  List.mem_of_mem_head? ring.first

theorem Ring.tail_mem (ring : Ring next front tail used free) : tail ∈ used :=
  List.mem_of_getLast? ring.last

theorem Ring.next_tail (ring : Ring next front tail used free) : (free ++ [front]).head? = some (next tail) := by
  obtain ⟨following, shape⟩ : ∃ following, (free ++ [front]).head? = some following := by
    cases free with
    | nil => exact ⟨front, rfl⟩
    | cons place free => exact ⟨place, rfl⟩
  have linked := (List.isChain_append.mp ring.chain).2.2 tail ring.last following shape
  rw [shape, linked]

theorem Ring.free_of_next_ne (ring : Ring next front tail used free) (apart : next tail ≠ front) :
    ∃ rest, free = next tail :: rest := by
  have head := ring.next_tail
  cases free with
  | nil =>
      cases head
      exact absurd rfl apart
  | cons place rest =>
      cases head
      exact ⟨rest, rfl⟩

theorem Ring.used_of_ne (ring : Ring next front tail used free) (apart : front ≠ tail) :
    ∃ rest, used = front :: next front :: rest := by
  have first := ring.first
  have last := ring.last
  have chain := ring.chain
  match used with
  | [] => cases first
  | [only] =>
      cases first
      cases last
      exact absurd rfl apart
  | one :: two :: rest =>
      cases first
      obtain rfl : next front = two := (List.isChain_cons_cons.mp chain).1
      exact ⟨rest, rfl⟩

theorem Ring.tail_ne (ring : Ring next front tail (front :: place :: rest) free) : front ≠ tail := by
  intro same
  have last := ring.last
  rw [List.getLast?_cons_cons, ← same] at last
  exact (List.nodup_cons.mp (List.nodup_append.mp ring.nodup).1).1 (List.mem_of_getLast? last)

theorem Ring.used_of_eq (ring : Ring next front tail used free) (same : front = tail) : used = [front] := by
  match used, ring with
  | [], ring => cases ring.first
  | [only], ring =>
      cases ring.first
      rfl
  | one :: two :: rest, ring =>
      cases ring.first
      exact absurd same ring.tail_ne

/-- The front moves on, and the place it leaves becomes the last free one. -/
theorem Ring.release (ring : Ring next front tail (front :: place :: rest) free) :
    Ring next place tail (place :: rest) (free ++ [front]) where
  chain := by
    have chain := ring.chain
    rw [List.cons_append, List.cons_append, List.isChain_cons_cons, ← List.cons_append] at chain
    rw [List.append_assoc, ← List.append_assoc]
    rw [← List.append_assoc] at chain
    have closes : [front, place].IsChain fun place following => next place = following := by simpa using chain.1
    exact List.isChain_split.mpr ⟨chain.2, closes⟩
  first := rfl
  last := by
    have last := ring.last
    rwa [List.getLast?_cons_cons] at last
  nodup := by
    have nodup := ring.nodup
    rw [← List.append_assoc]
    exact (List.perm_append_singleton _ _).nodup_iff.mpr nodup

/-- The tail moves on to the first free place. -/
theorem Ring.extend (ring : Ring next front tail used (place :: rest)) :
    Ring next front place (used ++ [place]) rest where
  chain := by simpa using ring.chain
  first := by
    rw [List.head?_append, ring.first]
    rfl
  last := List.getLast?_concat
  nodup := by simpa using ring.nodup

theorem Ring.congr {other : β → β} (ring : Ring next front tail used free)
    (same : ∀ place ∈ used ++ free, other place = next place) : Ring other front tail used free where
  chain := by
    refine ring.chain.imp_of_mem_imp fun place following member _ linked => ?_
    have inside : place ∈ used ++ free := by
      rw [← List.append_assoc] at member
      rcases List.mem_append.mp member with inside | only
      · exact inside
      · rw [List.mem_singleton.mp only]
        exact List.mem_append_left _ ring.front_mem
    rw [same place inside, linked]
  first := ring.first
  last := ring.last
  nodup := ring.nodup

theorem isChain_of_dropLast {R S : β → β → Prop} {places : List β}
    (each : ∀ place ∈ places.dropLast, ∀ following, R place following → S place following)
    (chain : places.IsChain R) : places.IsChain S := by
  induction chain with
  | nil => exact .nil
  | singleton place => exact .singleton place
  | cons_cons linked _ ih =>
      rw [List.dropLast_cons_cons, List.forall_mem_cons] at each
      exact .cons_cons (each.1 _ linked) (ih each.2)

/-- A new place is put behind the tail, and is free. -/
theorem Ring.insert {other : β → β} (ring : Ring next front tail used free) (fresh : place ∉ used ++ free)
    (linked : other tail = place) (onward : other place = next tail)
    (same : ∀ old ∈ used ++ free, old ≠ tail → other old = next old) :
    Ring other front tail used (place :: free) where
  chain := by
    obtain ⟨earlier, rfl⟩ := List.getLast?_eq_some_iff.mp ring.last
    have chain := ring.chain
    have nodup := ring.nodup
    obtain ⟨following, rest, shape⟩ : ∃ following rest, free ++ [front] = following :: rest :=
      List.exists_cons_of_ne_nil (by simp)
    have head := ring.next_tail
    rw [shape, List.head?_cons, Option.some.injEq] at head
    rw [List.append_assoc, shape, List.singleton_append, List.isChain_append_cons_cons] at chain
    have kept : ∀ old ∈ earlier ++ free, ∀ following, next old = following → other old = following := by
      intro old member following linked
      rw [← linked]
      have apart : old ≠ tail := by
        intro equal
        subst equal
        rw [List.append_assoc, List.singleton_append] at nodup
        exact (List.nodup_middle.mp nodup).notMem member
      apply same old _ apart
      rcases List.mem_append.mp member with before | after
      · simp [before]
      · simp [after]
    rw [List.append_assoc, List.singleton_append, List.cons_append, List.isChain_append_cons_cons, shape,
      List.isChain_cons_cons]
    refine ⟨?_, linked, by rw [onward, head], ?_⟩
    · refine isChain_of_dropLast ?_ chain.1
      intro old member
      rw [List.dropLast_concat] at member
      exact kept old (List.mem_append_left _ member)
    · refine isChain_of_dropLast ?_ chain.2.2
      intro old member
      rw [← shape, List.dropLast_concat] at member
      exact kept old (List.mem_append_right _ member)
  first := ring.first
  last := ring.last
  nodup := by
    have nodup := List.nodup_cons.mpr ⟨fresh, ring.nodup⟩
    exact List.perm_middle.nodup_iff.mpr nodup

end Rings

end Webapp.Data

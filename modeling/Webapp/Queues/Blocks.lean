import Webapp.Data.Circular
import Webapp.Data.Words

namespace Webapp.Queues

open Webapp.Data

/-! The blocks of `ReaderWriterQueue`: circular buffers of a power of two of
slots, one of which always stays unused.  A slot without a value is raw memory;
blocks are known by their number.
-/

structure Block (α : Type) where
  front : Nat
  tail : Nat
  next : Nat
  size : Nat
  data : Nat → Option α

/-- Rounds up to a power of two, in `size_t`.  The loop of the source runs for the
widths 1, 2 and 4. -/
def ceilToPow2 (value : Nat) : Nat :=
  let below := sizeT ((value : Int) - 1)
  let below := below ||| below >>> 1
  let below := below ||| below >>> 2
  let below := below ||| below >>> 4
  let filled := [1, 2, 4].foldl (fun below width => below ||| below >>> (width <<< 3)) below
  sizeT (filled + 1)

section Rounding

/-- A bit of `filled` stands where one of the next `width` bits of `value` does. -/
def Spread (value width filled : Nat) : Prop :=
  ∀ place, filled.testBit place = true ↔ ∃ distance < width, value.testBit (place + distance) = true

theorem Spread.refl (value : Nat) : Spread value 1 value := by
  intro place
  simp

theorem Spread.double {value width filled : Nat} (spread : Spread value width filled) :
    Spread value (width + width) (filled ||| filled >>> width) := by
  intro place
  rw [Nat.testBit_or, Nat.testBit_shiftRight, Bool.or_eq_true, spread place, spread (width + place)]
  constructor
  · intro either
    rcases either with near | far
    · obtain ⟨distance, inside, found⟩ := near
      exact ⟨distance, by omega, found⟩
    · obtain ⟨distance, inside, found⟩ := far
      exact ⟨width + distance, by omega, by rwa [show place + (width + distance) = width + place + distance by omega]⟩
  · intro somewhere
    obtain ⟨distance, inside, found⟩ := somewhere
    by_cases near : distance < width
    · exact .inl ⟨distance, near, found⟩
    · exact .inr ⟨distance - width, by omega, by rwa [show width + place + (distance - width) = place + distance by omega]⟩

theorem Spread.filled {value filled top : Nat} (spread : Spread value 64 filled) (small : top < 64)
    (highest : value.testBit top = true) (above : ∀ place > top, value.testBit place = false) :
    filled = 2 ^ (top + 1) - 1 := by
  apply Nat.eq_of_testBit_eq
  intro place
  rw [Nat.testBit_two_pow_sub_one, Bool.eq_iff_iff, spread place, decide_eq_true_iff]
  constructor
  · intro somewhere
    obtain ⟨distance, _, found⟩ := somewhere
    by_contra outside
    rw [above (place + distance) (by omega)] at found
    cases found
  · intro inside
    exact ⟨top - place, by omega, by rwa [show place + (top - place) = top by omega]⟩

theorem clog_eq_of_le_iff {value exponent : Nat} (least : ∀ other, value ≤ 2 ^ other ↔ exponent ≤ other) :
    Nat.clog 2 value = exponent := by
  apply Nat.le_antisymm
  · exact (Nat.clog_le_iff_le_pow Nat.one_lt_two).mpr ((least exponent).mpr (Nat.le_refl _))
  · exact (least _).mp ((Nat.clog_le_iff_le_pow Nat.one_lt_two).mp (Nat.le_refl _))

theorem lt_two_pow_iff_of_highest {value top : Nat} (highest : value.testBit top = true)
    (above : ∀ place > top, value.testBit place = false) (exponent : Nat) : value < 2 ^ exponent ↔ top < exponent := by
  constructor
  · intro small
    by_contra outside
    rw [Nat.testBit_lt_two_pow (Nat.lt_of_lt_of_le small (Nat.pow_le_pow_right (by decide) (by omega)))] at highest
    cases highest
  · intro inside
    apply Nat.lt_pow_two_of_testBit
    intro place outside
    exact above place (by omega)

theorem ceilToPow2_spread (value : Nat) :
    ∃ filled, Spread (sizeT ((value : Int) - 1)) 64 filled ∧ ceilToPow2 value = sizeT (filled + 1) :=
  ⟨_, (Spread.refl _).double.double.double.double.double.double, rfl⟩

/-- The least power of two that is not below the value, where `size_t` has one. -/
theorem ceilToPow2_eq {value : Nat} (positive : 0 < value) (small : value ≤ 2 ^ 63) :
    ceilToPow2 value = 2 ^ Nat.clog 2 value := by
  obtain ⟨filled, spread, result⟩ := ceilToPow2_spread value
  have below : sizeT ((value : Int) - 1) = value - 1 := by
    simp only [sizeT]
    omega
  rw [below] at spread
  rw [result]
  by_cases zero : value - 1 = 0
  · have none : filled = 0 := by
      apply Nat.eq_of_testBit_eq
      intro place
      rw [Bool.eq_iff_iff, spread place, zero]
      simp
    have one : value = 1 := by omega
    rw [none, one]
    rfl
  · obtain ⟨top, highest, above⟩ := Nat.exists_most_significant_bit zero
    have least := lt_two_pow_iff_of_highest highest above
    have inside : top < 63 := (least 63).mp (by omega)
    have exponent : Nat.clog 2 value = top + 1 := by
      apply clog_eq_of_le_iff
      intro other
      rw [Nat.add_one_le_iff, ← least other]
      omega
    rw [spread.filled (by omega) highest above, exponent]
    have bound : 2 ^ (top + 1) ≤ 2 ^ 63 := Nat.pow_le_pow_right (by decide) inside
    have positivePower : 0 < 2 ^ (top + 1) := Nat.two_pow_pos _
    simp only [sizeT]
    omega

theorem ceilToPow2_size {value : Nat} (positive : 1 < value) (small : value ≤ 2 ^ 63) :
    ∃ exponent, ceilToPow2 value = 2 ^ (exponent + 1) ∧ value ≤ 2 ^ (exponent + 1) := by
  have large := Nat.le_pow_clog Nat.one_lt_two value
  have exponent : 0 < Nat.clog 2 value := Nat.clog_pos Nat.one_lt_two positive
  refine ⟨Nat.clog 2 value - 1, ?_, ?_⟩
  · rw [ceilToPow2_eq (by omega) small, Nat.sub_add_cancel exponent]
  · rwa [Nat.sub_add_cancel exponent]

end Rounding

namespace Block

variable {α : Type} {block : Block α} {released unpublished : Nat} {items : List α} {item : α}

def create (size next : Nat) : Block α := ⟨0, 0, next, size, fun _ => none⟩

def sizeMask (block : Block α) : Nat := block.size - 1

def construct (block : Block α) (index : Nat) (item : α) : Block α :=
  { block with data := Function.update block.data index (some item) }

def destroy (block : Block α) (index : Nat) : Block α :=
  { block with data := Function.update block.data index none }

/-- The slots between front and tail. -/
def slots (block : Block α) : List (Option α) :=
  (List.range ((block.tail + block.size - block.front) % block.size)).map fun index =>
    block.data ((block.front + index) % block.size)

/-- The block holds some items.  Of the slots between front and tail the first
ones may already be released by the consumer, and the producer may have
constructed items behind the tail that are not published yet. -/
structure Holds (block : Block α) (released unpublished : Nat) (items : List α) : Prop where
  size : ∃ exponent, block.size = 2 ^ (exponent + 1)
  front : block.front < block.size
  room : released + items.length < block.size
  pending : unpublished ≤ items.length
  tail : block.tail = (block.front + released + (items.length - unpublished)) % block.size
  data : Circular block.size block.data (block.front + released) items

theorem Holds.create {size next : Nat} (power : ∃ exponent, size = 2 ^ (exponent + 1)) :
    (create size next : Block α).Holds 0 0 [] where
  size := power
  front := by
    obtain ⟨exponent, rfl⟩ := power
    exact Nat.two_pow_pos _
  room := by
    obtain ⟨exponent, rfl⟩ := power
    exact Nat.two_pow_pos _
  pending := Nat.le_refl 0
  tail := by simp [Block.create]
  data := Circular.nil _ _

theorem Holds.mask (holds : block.Holds released unpublished items) (index : Nat) :
    (index + 1) &&& block.sizeMask = (index + 1) % block.size := by
  obtain ⟨exponent, size⟩ := holds.size
  rw [sizeMask, size, Nat.and_two_pow_sub_one_eq_mod]

theorem Holds.relink (holds : block.Holds released unpublished items) (next : Nat) :
    Holds { block with next } released unpublished items :=
  ⟨holds.size, holds.front, holds.room, holds.pending, holds.tail, holds.data⟩

theorem Holds.tail_lt (holds : block.Holds released unpublished items) : block.tail < block.size := by
  rw [holds.tail]
  exact Nat.mod_lt _ (Nat.lt_of_le_of_lt (Nat.zero_le _) holds.front)

theorem Holds.tail_vacant (holds : block.Holds released 0 items) : block.data block.tail = none := by
  rw [holds.tail]
  exact holds.data.vacant (Nat.lt_of_le_of_lt (Nat.le_add_left _ _) holds.room)

theorem Holds.construct (holds : block.Holds released 0 items) (room : released + items.length + 1 < block.size)
    (item : α) : (block.construct block.tail item).Holds released 1 (items ++ [item]) where
  size := holds.size
  front := holds.front
  room := by
    rw [List.length_append, List.length_singleton]
    exact room
  pending := by simp
  tail := by
    rw [List.length_append, List.length_singleton, Nat.add_sub_cancel]
    exact holds.tail
  data := by
    have pushed := holds.data.push (Nat.lt_of_le_of_lt (Nat.le_add_left _ _) holds.room) item
    have tail := holds.tail
    rw [Nat.sub_zero] at tail
    rwa [← tail] at pushed

theorem Holds.publish (holds : block.Holds released 1 items) :
    Holds { block with tail := (block.tail + 1) % block.size } released 0 items where
  size := holds.size
  front := holds.front
  room := holds.room
  pending := Nat.zero_le _
  tail := by
    have pending := holds.pending
    change (block.tail + 1) % block.size = _
    rw [holds.tail, Nat.mod_add_mod, Nat.add_assoc, Nat.sub_add_cancel pending]
    rfl
  data := holds.data

theorem Holds.front_constructed (holds : block.Holds 0 unpublished (item :: items)) :
    block.data block.front = some item := by
  have first := holds.data.first (by have := holds.room; simp only [List.length_cons] at this; omega)
  rwa [Nat.add_zero, Nat.mod_eq_of_lt holds.front] at first

theorem Holds.take (holds : block.Holds 0 unpublished (item :: items)) (published : unpublished ≤ items.length) :
    (block.destroy block.front).Holds 1 unpublished items where
  size := holds.size
  front := holds.front
  room := by
    have room := holds.room
    rw [List.length_cons] at room
    change 1 + items.length < block.size
    omega
  pending := published
  tail := by
    have tail := holds.tail
    rw [List.length_cons] at tail
    change block.tail = (block.front + 1 + (items.length - unpublished)) % block.size
    rw [tail]
    congr 1
    omega
  data := by
    have popped := holds.data.pop (by have := holds.room; simp only [List.length_cons] at this; omega)
    rwa [Nat.add_zero, Nat.mod_eq_of_lt holds.front] at popped

theorem Holds.storeFront (holds : block.Holds 1 unpublished items) :
    Holds { block with front := (block.front + 1) % block.size } 0 unpublished items where
  size := holds.size
  front := Nat.mod_lt _ (Nat.lt_of_le_of_lt (Nat.zero_le _) holds.front)
  room := by
    have room := holds.room
    change 0 + items.length < block.size
    omega
  pending := holds.pending
  tail := by
    change block.tail = ((block.front + 1) % block.size + 0 + (items.length - unpublished)) % block.size
    rw [Nat.add_zero, Nat.mod_add_mod]
    exact holds.tail
  data := holds.data.mod

/-- How far the tail is ahead of the front. -/
theorem Holds.distance (holds : block.Holds released unpublished items) :
    (block.tail + block.size - block.front) % block.size = released + (items.length - unpublished) := by
  have front := holds.front
  have short : released + (items.length - unpublished) < block.size := by
    have room := holds.room
    omega
  rw [holds.tail, Nat.add_assoc block.front]
  generalize released + (items.length - unpublished) = count at short
  by_cases inside : block.front + count < block.size
  · rw [Nat.mod_eq_of_lt inside, show block.front + count + block.size - block.front = count + block.size by omega,
      Nat.add_mod_right, Nat.mod_eq_of_lt short]
  · have wrapped : (block.front + count) % block.size = block.front + count - block.size := by
      rw [Nat.mod_eq_sub_mod (by omega), Nat.mod_eq_of_lt (by omega)]
    rw [wrapped, show block.front + count - block.size + block.size - block.front = count by omega,
      Nat.mod_eq_of_lt short]

theorem Holds.released_raw (holds : block.Holds released unpublished items) {index : Nat} (early : index < released) :
    block.data ((block.front + index) % block.size) = none := by
  have room := holds.room
  have cell := holds.data (block.size - released + index) (by omega)
  have around : block.front + released + (block.size - released + index) = block.front + index + block.size := by omega
  rw [around, Nat.add_mod_right] at cell
  rw [cell, List.getElem?_eq_none (by omega)]

/-- Between front and tail stand the items that are published. -/
theorem Holds.slots (holds : block.Holds released unpublished items) :
    block.slots.reduceOption = items.take (items.length - unpublished) := by
  have room := holds.room
  have window := holds.data.window (Nat.sub_le items.length unpublished) (by omega)
  have raw : ((List.range released).map fun index => block.data ((block.front + index) % block.size)) =
      List.replicate released none := by
    apply List.eq_replicate_iff.mpr
    refine ⟨by simp, fun slot member => ?_⟩
    obtain ⟨index, inside, rfl⟩ := List.mem_map.mp member
    exact holds.released_raw (List.mem_range.mp inside)
  have rest : (((List.range (items.length - unpublished)).map fun index => released + index).map fun index =>
      block.data ((block.front + index) % block.size)) = (items.take (items.length - unpublished)).map some := by
    rw [← window, List.map_map]
    simp only [Function.comp_def, Nat.add_assoc]
  rw [Block.slots, holds.distance, List.range_add, List.map_append, raw, rest, List.reduceOption_append,
    List.reduceOption_replicate_none, List.nil_append]
  simp [List.reduceOption]

theorem Holds.front_eq_tail_iff (holds : block.Holds released unpublished items) :
    block.front = block.tail ↔ released + (items.length - unpublished) = 0 := by
  have front := holds.front
  have tail := holds.tail_lt
  have distance := holds.distance
  constructor
  · intro same
    rw [← distance, ← same, Nat.add_sub_cancel_left, Nat.mod_self]
  · intro zero
    rw [zero] at distance
    by_contra apart
    rcases Nat.lt_or_gt_of_ne apart with behind | ahead
    · rw [Nat.mod_eq_sub_mod (by omega), Nat.mod_eq_of_lt (by omega)] at distance
      omega
    · rw [Nat.mod_eq_of_lt (by omega)] at distance
      omega

end Block

end Webapp.Queues

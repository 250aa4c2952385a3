import Webapp.Queues.Fifo

namespace Webapp.Queues

open Webapp.Data

/-! The destructor of `ReaderWriterQueue`, which walks once around the blocks when
both threads are done.
-/

variable {α : Type} {queue : ReaderWriterQueue α}

theorem destroySlots_eq {block : Block α} {items : List α} (holds : block.Holds 0 0 items) {index more : Nat}
    (within : index ≤ items.length) (enough : items.length - index < more) :
    ReaderWriterQueue.destroySlots block more ((block.front + index) % block.size) = some (items.drop index) := by
  have room := holds.room
  have tail := holds.tail
  rw [Nat.add_zero, Nat.sub_zero] at tail
  induction more generalizing index with
  | zero => omega
  | succ more ih =>
      rw [ReaderWriterQueue.destroySlots]
      by_cases last : index = items.length
      · rw [if_pos (by rw [last, tail]), last, List.drop_length]
      · have inside : index < items.length := by omega
        have apart : (block.front + index) % block.size ≠ block.tail := by
          rw [tail]
          exact fun same => last (circular_index_inj (by omega) (by omega) same)
        have cell := holds.data index (by omega)
        rw [Nat.add_zero, List.getElem?_eq_getElem inside] at cell
        rw [if_neg apart, cell, Option.bind_some, holds.mask, Nat.mod_add_mod, Nat.add_assoc,
          ih (by omega) (by omega), List.drop_eq_getElem_cons inside]
        rfl

theorem destroySlots_front {block : Block α} {items : List α} (holds : block.Holds 0 0 items) :
    ReaderWriterQueue.destroySlots block block.size block.front = some items := by
  have room := holds.room
  have all := destroySlots_eq holds (Nat.zero_le _) (show items.length - 0 < block.size by omega)
  rwa [Nat.add_zero, Nat.mod_eq_of_lt holds.front, List.drop_zero] at all

/-- The walk from a block on deletes the blocks up to the front block, one after the
other. -/
theorem destroyFrom_eq {places deleted : List Nat} {first more : Nat} {items : Nat → List α}
    (chain : (places ++ [queue.frontBlock]).IsChain fun place following => (queue.blocks place).next = following)
    (head : places.head? = some first) (nodup : (deleted ++ places).Nodup) (around : queue.frontBlock ∉ places.tail)
    (known : ∀ place ∈ places, queue.block? place = some (queue.blocks place))
    (holds : ∀ place ∈ places, (queue.blocks place).Holds 0 0 (items place)) (enough : places.length ≤ more) :
    queue.destroyFrom more deleted first = some (places.flatMap items, deleted ++ places) := by
  induction places generalizing deleted first more with
  | nil => cases head
  | cons place places ih =>
      cases head
      obtain ⟨more, rfl⟩ : ∃ fewer, more = fewer + 1 := ⟨more - 1, by simp only [List.length_cons] at enough; omega⟩
      rw [List.forall_mem_cons] at known holds
      have fresh : place ∉ deleted := fun member =>
        (List.nodup_append.mp nodup).2.2 place member place List.mem_cons_self rfl
      rw [ReaderWriterQueue.destroyFrom, if_neg fresh, known.1, Option.bind_some, destroySlots_front holds.1,
        Option.bind_some]
      cases places with
      | nil =>
          obtain ⟨linked, _⟩ := List.isChain_cons_cons.mp chain
          rw [if_pos linked, List.flatMap_singleton]
      | cons following rest =>
          obtain ⟨linked, chain⟩ := List.isChain_cons_cons.mp chain
          rw [List.tail_cons] at around
          have notYet : (queue.blocks place).next ≠ queue.frontBlock := by
            rw [linked]
            exact fun same => around (same ▸ List.mem_cons_self)
          have later : queue.frontBlock ∉ rest := fun member => around (List.mem_cons_of_mem _ member)
          have nodup' : (deleted ++ [place] ++ following :: rest).Nodup := by simpa using nodup
          rw [if_neg notYet, linked, ih chain rfl nodup' later known.2 holds.2 (by simpa using enough)]
          simp

namespace Channel

/-- When both threads are done, the destructor ends: it destroys the elements that
were enqueued and not returned, each once and in order, and deletes each block that
was ever allocated once. -/
theorem destroy_exact {maxSize : Nat} (positive : 0 < maxSize) (small : maxSize < 2 ^ 63)
    (moves : List (ChannelMove α)) (channel : Channel α) (ran : run step (start maxSize) moves = some channel)
    (producerDone : channel.left.call = none) (consumerDone : channel.right.call = none) :
    ∃ destroyed deleted, channel.memory.destroy = some (destroyed, deleted) ∧
      channel.left.enqueued = channel.right.returned.reduceOption ++ destroyed ∧
      deleted.Perm (List.range channel.memory.allocated) := by
  have sound := Sound.reached positive small ran
  have order := Certain.order sound
  obtain ⟨layout, describes, left, right⟩ := sound
  rw [Producer.Knows, producerDone] at left
  rw [Consumer.Knows, consumerDone] at right
  have quiet := left.1
  have ring := describes.ring
  obtain ⟨rest, shape⟩ := describes.front_shape
  have places : ∀ place, place ∈ layout.used ++ layout.free ↔ place < channel.memory.allocated := by
    intro place
    have known := describes.allocated place
    rw [quiet.fresh] at known
    simpa using known.symm
  have sameBlocks : (layout.used ++ layout.free).Perm (List.range channel.memory.allocated) := by
    rw [List.perm_ext_iff_of_nodup ring.nodup List.nodup_range]
    intro place
    rw [places place, List.mem_range]
  have holds : ∀ place ∈ layout.used ++ layout.free,
      (channel.memory.blocks place).Holds 0 0 (layout.items place) := by
    intro place member
    have described := describes.blocks place member
    have none : layout.unpublishedAt place = 0 := by simp [Layout.unpublishedAt, quiet.unpublished]
    have zero : layout.releasedAt channel.memory place = 0 := by simp [Layout.releasedAt, right.1]
    rwa [none, zero] at described
  have chain := ring.chain
  rw [← List.append_assoc] at chain
  have around : channel.memory.frontBlock ∉ (layout.used ++ layout.free).tail := by
    have nodup := ring.nodup
    rw [shape, List.cons_append] at nodup ⊢
    exact (List.nodup_cons.mp nodup).1
  have walked : channel.memory.destroyFrom channel.memory.allocated [] channel.memory.frontBlock =
      some ((layout.used ++ layout.free).flatMap layout.items, [] ++ (layout.used ++ layout.free)) :=
    destroyFrom_eq chain (by rw [shape]; rfl) ring.nodup around (fun place member => describes.block? member) holds
      (by simpa using sameBlocks.length_eq.le)
  refine ⟨_, _, walked, ?_, sameBlocks⟩
  have nothing : channel.inHand = [] := by rw [inHand, consumerDone]
  have visible : layout.visible = layout.used.flatMap layout.items :=
    Layout.visible_of_unpublished (by rw [quiet.unpublished]; simp)
  have empty := quiet.prepared
  rw [Layout.prepared] at empty
  rw [order, nothing, List.append_nil, describes.contents, visible, List.flatMap_append, empty, List.append_nil]

theorem destroy_exact_overflowing :
    ∃ channel destroyed deleted, run step (start 1) (overflowing ++ [.inr .proceed]) = some channel ∧
      channel.memory.destroy = some (destroyed, deleted) ∧ deleted.Perm [0, 1] := by
  have positive : 0 < 1 := by decide
  have small : 1 < 2 ^ 63 := by decide
  obtain ⟨destroyed, deleted, ended, _, blocks⟩ := destroy_exact positive small
    (overflowing ++ [.inr .proceed]) _ rfl rfl rfl
  exact ⟨_, destroyed, deleted, rfl, ended, blocks⟩

end Channel

end Webapp.Queues

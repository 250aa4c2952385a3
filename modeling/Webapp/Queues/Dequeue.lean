import Webapp.Queues.Layout

namespace Webapp.Queues

open Webapp.Data

/-! The consumer's side of `ReaderWriterQueue`: what `try_dequeue` knows of the
memory at each of its points.  A call that began with an element to be seen is
sure to return one.
-/

variable {α : Type}

namespace Layout

theorem ConsumerStep.refl {layout : Layout α} {queue : ReaderWriterQueue α} (describes : layout.Describes queue) :
    ConsumerStep layout queue layout queue where
  tailBlock := rfl
  blocks _ := ⟨rfl, rfl, rfl⟩
  history := rfl
  prepared := rfl
  fresh := rfl
  unpublished := rfl
  free := List.prefix_refl _
  untouched _ _ := ⟨rfl, rfl⟩
  emptied := by
    refine ⟨0, ?_, Nat.zero_add _⟩
    rw [Nat.add_zero, Nat.mod_eq_of_lt (describes.blocks _ describes.tail_mem).front]

end Layout

namespace DequeuePoint

/-- What the call has taken out of the queue. -/
def inHand : DequeuePoint α → List α
  | .storeFront _ _ result | .returned (some result) => [result]
  | _ => []

/-- What loading the tail block has shown. -/
structure Started (sure : Prop) (layout : Layout α) (queue : ReaderWriterQueue α) (tailBlockAtStart : Nat) : Prop where
  released : layout.released = 0
  further : tailBlockAtStart ≠ queue.frontBlock → queue.frontBlock ≠ queue.tailBlock
  here : sure → tailBlockAtStart = queue.frontBlock → 0 < layout.published queue.frontBlock

/-- The front block is used up, and there is another one. -/
structure Exhausted (layout : Layout α) (queue : ReaderWriterQueue α) : Prop where
  released : layout.released = 0
  further : queue.frontBlock ≠ queue.tailBlock
  empty : layout.items queue.frontBlock = []

def Knows (sure : Prop) (layout : Layout α) (queue : ReaderWriterQueue α) : DequeuePoint α → Prop
  | .loadTailBlock => layout.released = 0 ∧ (sure → ∃ block ∈ layout.used, 0 < layout.published block)
  | .loadFrontBlock tailBlockAtStart => Started sure layout queue tailBlockAtStart
  | .loadTail tailBlockAtStart frontBlock =>
      Started sure layout queue tailBlockAtStart ∧ frontBlock = queue.frontBlock
  | .loadFront tailBlockAtStart frontBlock blockTail =>
      Started sure layout queue tailBlockAtStart ∧ frontBlock = queue.frontBlock ∧
        ∃ count ≤ layout.published frontBlock,
          blockTail = ((queue.blocks frontBlock).front + count) % (queue.blocks frontBlock).size ∧
          (tailBlockAtStart ≠ frontBlock → count = layout.published frontBlock) ∧
          (sure → tailBlockAtStart = frontBlock → 0 < count)
  | .take frontBlock blockFront =>
      layout.released = 0 ∧ frontBlock = queue.frontBlock ∧ blockFront = (queue.blocks frontBlock).front ∧
        0 < layout.published frontBlock
  | .storeFront frontBlock blockFront _ =>
      layout.released = 1 ∧ frontBlock = queue.frontBlock ∧
        blockFront = ((queue.blocks frontBlock).front + 1) % (queue.blocks frontBlock).size
  | .loadNext frontBlock => Exhausted layout queue ∧ frontBlock = queue.frontBlock
  | .loadNextFront nextBlock => Exhausted layout queue ∧ nextBlock = (queue.blocks queue.frontBlock).next
  | .loadNextTail nextBlock nextBlockFront | .storeFrontBlock nextBlock nextBlockFront =>
      Exhausted layout queue ∧ nextBlock = (queue.blocks queue.frontBlock).next ∧
        nextBlockFront = (queue.blocks nextBlock).front
  | .returned result => layout.released = 0 ∧ (sure → result ≠ none)

end DequeuePoint

/-- The step of a call leads to a point where again is known what the point says. -/
def DequeueLeads (sure : Prop) (before : List α) (layout : Layout α) (queue : ReaderWriterQueue α)
    (point : DequeuePoint α) : Prop :=
  ∃ queue' point' layout', queue.tryDequeue point = some (queue', point') ∧
    layout'.Describes queue' ∧ point'.Knows sure layout' queue' ∧
    layout'.gone = before ++ point'.inHand ∧ Layout.ConsumerStep layout queue layout' queue'

section Steps

variable {sure : Prop} {before : List α} {layout : Layout α} {queue : ReaderWriterQueue α}

/-- A step that only loads. -/
theorem DequeueLeads.load {point point' : DequeuePoint α} (describes : layout.Describes queue)
    (taken : layout.gone = before ++ point.inHand)
    (loaded : queue.tryDequeue point = some (queue, point')) (knows : point'.Knows sure layout queue)
    (same : point'.inHand = point.inHand) : DequeueLeads sure before layout queue point :=
  ⟨queue, point', layout, loaded, describes, knows, by rw [taken, same], .refl describes⟩

theorem loadTailBlock_leads (describes : layout.Describes queue)
    (knows : (DequeuePoint.loadTailBlock : DequeuePoint α).Knows sure layout queue)
    (taken : layout.gone = before ++ []) : DequeueLeads sure before layout queue .loadTailBlock := by
  refine .load describes taken rfl ⟨knows.1, fun apart same => apart same.symm, ?_⟩ rfl
  intro certain same
  obtain ⟨block, member, found⟩ := knows.2 certain
  rw [describes.ring.used_of_eq same.symm, List.mem_singleton] at member
  rwa [member] at found

theorem Describes.holds_front (describes : layout.Describes queue) (released : layout.released = 0) :
    (queue.blocks queue.frontBlock).Holds 0 (layout.unpublishedAt queue.frontBlock)
      (layout.items queue.frontBlock) := by
  have holds := describes.blocks _ describes.front_mem
  rwa [Layout.releasedAt, if_pos rfl, released] at holds

theorem loadTail_dequeue_leads {tailBlockAtStart frontBlock : Nat} (describes : layout.Describes queue)
    (knows : (DequeuePoint.loadTail tailBlockAtStart frontBlock : DequeuePoint α).Knows sure layout queue)
    (taken : layout.gone = before ++ []) :
    DequeueLeads sure before layout queue (.loadTail tailBlockAtStart frontBlock) := by
  obtain ⟨started, rfl⟩ := knows
  have holds := Describes.holds_front describes started.released
  have loaded : queue.tryDequeue (.loadTail tailBlockAtStart queue.frontBlock) =
      some (queue, .loadFront tailBlockAtStart queue.frontBlock (queue.blocks queue.frontBlock).tail) := by
    rw [ReaderWriterQueue.tryDequeue, describes.block? describes.front_mem]
    rfl
  refine .load describes taken loaded ⟨started, rfl, layout.published queue.frontBlock, Nat.le_refl _, ?_,
    fun _ => rfl, started.here⟩ rfl
  have tail := holds.tail
  rwa [Nat.add_zero] at tail

theorem loadFront_dequeue_leads {tailBlockAtStart frontBlock blockTail : Nat} (describes : layout.Describes queue)
    (knows : (DequeuePoint.loadFront tailBlockAtStart frontBlock blockTail : DequeuePoint α).Knows sure layout queue)
    (taken : layout.gone = before ++ []) :
    DequeueLeads sure before layout queue (.loadFront tailBlockAtStart frontBlock blockTail) := by
  obtain ⟨started, rfl, count, most, rfl, exact, least⟩ := knows
  have holds := Describes.holds_front describes started.released
  have found := describes.block? describes.front_mem
  have inside : count < (queue.blocks queue.frontBlock).size := by
    have room := holds.room
    simp only [Layout.published] at most
    omega
  by_cases zero : count = 0
  · subst zero
    have same : (queue.blocks queue.frontBlock).front =
        ((queue.blocks queue.frontBlock).front + 0) % (queue.blocks queue.frontBlock).size := by
      rw [Nat.add_zero, Nat.mod_eq_of_lt holds.front]
    by_cases here : queue.frontBlock = tailBlockAtStart
    · subst here
      have loaded : queue.tryDequeue (.loadFront queue.frontBlock queue.frontBlock
          (((queue.blocks queue.frontBlock).front + 0) % (queue.blocks queue.frontBlock).size)) =
            some (queue, .returned none) := by
        simp only [ReaderWriterQueue.tryDequeue, found, Option.map_some, ← same, ne_eq, not_true, if_false]
      refine .load describes taken loaded ⟨started.released, ?_⟩ rfl
      intro certain
      exact absurd (least certain rfl) (Nat.lt_irrefl 0)
    · have loaded : queue.tryDequeue (.loadFront tailBlockAtStart queue.frontBlock
          (((queue.blocks queue.frontBlock).front + 0) % (queue.blocks queue.frontBlock).size)) =
            some (queue, .loadNext queue.frontBlock) := by
        simp only [ReaderWriterQueue.tryDequeue, found, Option.map_some, ← same, ne_eq, not_true, if_false, here,
          not_false_iff, if_true]
      have further := started.further (Ne.symm here)
      have none := describes.unpublishedAt_of_ne describes.ring.front_mem further
      have empty := exact (Ne.symm here)
      rw [Layout.published, none, Nat.sub_zero] at empty
      exact .load describes taken loaded
        ⟨⟨started.released, further, List.eq_nil_of_length_eq_zero empty.symm⟩, rfl⟩ rfl
  · have apart : (queue.blocks queue.frontBlock).front ≠
        ((queue.blocks queue.frontBlock).front + count) % (queue.blocks queue.frontBlock).size := by
      intro same
      have front : (queue.blocks queue.frontBlock).front =
          ((queue.blocks queue.frontBlock).front + 0) % (queue.blocks queue.frontBlock).size := by
        rw [Nat.add_zero, Nat.mod_eq_of_lt holds.front]
      exact zero (circular_index_inj inside (by omega) (same.symm.trans front))
    have loaded : queue.tryDequeue (.loadFront tailBlockAtStart queue.frontBlock
        (((queue.blocks queue.frontBlock).front + count) % (queue.blocks queue.frontBlock).size)) =
          some (queue, .take queue.frontBlock (queue.blocks queue.frontBlock).front) := by
      simp only [ReaderWriterQueue.tryDequeue, found, Option.map_some, ne_eq, apart, not_false_iff, if_true]
    exact .load describes taken loaded ⟨started.released, rfl, rfl, by omega⟩ rfl

/-- The consumer changes the front block only. -/
theorem ConsumerStep.modify {block : Block α} {items gone : List α} {released : Nat}
    (describes : layout.Describes queue)
    (tail : block.tail = (queue.blocks queue.frontBlock).tail) (next : block.next = (queue.blocks queue.frontBlock).next)
    (size : block.size = (queue.blocks queue.frontBlock).size)
    (history : gone ++ items = layout.gone ++ layout.items queue.frontBlock)
    (emptied : ∃ count, block.front =
        ((queue.blocks queue.frontBlock).front + count) % (queue.blocks queue.frontBlock).size ∧
      count + (released + items.length) = layout.released + (layout.items queue.frontBlock).length) :
    Layout.ConsumerStep layout queue
      { layout with items := Function.update layout.items queue.frontBlock items, released, gone }
      (queue.put queue.frontBlock block) where
  tailBlock := rfl
  blocks := by
    intro other
    by_cases same : other = queue.frontBlock
    · subst same
      rw [ReaderWriterQueue.put_blocks_self]
      exact ⟨tail, next, size⟩
    · rw [ReaderWriterQueue.put_blocks_of_ne _ same]
      exact ⟨rfl, rfl, rfl⟩
  history := by
    obtain ⟨rest, shape⟩ := describes.front_shape
    have absent := describes.front_notMem_tail
    rw [shape, List.tail_cons] at absent
    simp only [Layout.history, shape, List.flatMap_cons, Function.update_self, Layout.flatMap_update_of_notMem absent]
    rw [← List.append_assoc, history, List.append_assoc]
  prepared := Layout.flatMap_update_of_notMem (fun member => describes.free_ne_front member rfl) _
  fresh := rfl
  unpublished := rfl
  free := List.prefix_refl _
  untouched := by
    intro other outside
    have apart : other ≠ queue.frontBlock := fun same => outside (same ▸ describes.ring.front_mem)
    exact ⟨ReaderWriterQueue.put_blocks_of_ne _ apart _, Function.update_of_ne apart _ _⟩
  emptied := by
    by_cases same : queue.tailBlock = queue.frontBlock
    · obtain ⟨count, moved, fewer⟩ := emptied
      refine ⟨count, ?_, ?_⟩
      · rw [same, ReaderWriterQueue.put_blocks_self, moved]
      · rw [same]
        change count + ((if queue.frontBlock = queue.frontBlock then released else 0) +
          (Function.update layout.items queue.frontBlock items queue.frontBlock).length) =
            (if queue.frontBlock = queue.frontBlock then layout.released else 0) + _
        rw [if_pos rfl, if_pos rfl, Function.update_self]
        exact fewer
    · refine ⟨0, ?_, ?_⟩
      · rw [ReaderWriterQueue.put_blocks_of_ne _ same, Nat.add_zero,
          Nat.mod_eq_of_lt (describes.blocks _ describes.tail_mem).front]
      · change 0 + ((if queue.tailBlock = queue.frontBlock then released else 0) +
          (Function.update layout.items queue.frontBlock items queue.tailBlock).length) =
            (if queue.tailBlock = queue.frontBlock then layout.released else 0) + _
        rw [if_neg same, if_neg same, Function.update_of_ne same, Nat.zero_add]

theorem take_leads {frontBlock blockFront : Nat} (describes : layout.Describes queue)
    (knows : (DequeuePoint.take frontBlock blockFront : DequeuePoint α).Knows sure layout queue)
    (taken : layout.gone = before) : DequeueLeads sure before layout queue (.take frontBlock blockFront) := by
  obtain ⟨released, rfl, rfl, published⟩ := knows
  have holds := Describes.holds_front describes released
  obtain ⟨item, rest, shape⟩ : ∃ item rest, layout.items queue.frontBlock = item :: rest := by
    apply List.exists_cons_of_ne_nil
    intro empty
    simp [Layout.published, empty] at published
  rw [Layout.published, shape, List.length_cons] at published
  rw [shape] at holds
  have found := describes.block? describes.front_mem
  have loaded : queue.tryDequeue (.take queue.frontBlock (queue.blocks queue.frontBlock).front) =
      some (queue.put queue.frontBlock ((queue.blocks queue.frontBlock).destroy (queue.blocks queue.frontBlock).front),
        .storeFront queue.frontBlock
          (((queue.blocks queue.frontBlock).front + 1) % (queue.blocks queue.frontBlock).size) item) := by
    simp only [ReaderWriterQueue.tryDequeue, ReaderWriterQueue.takeAt, found, Option.bind_some, holds.front, if_true,
      holds.front_constructed, Option.map_some, holds.mask]
  refine ⟨_, _, { layout with
      items := Function.update layout.items queue.frontBlock rest
      released := 1
      gone := layout.gone ++ [item] }, loaded, ?_, ?_, ?_, ?_⟩
  · apply describes.modify
    · rfl
    · rw [if_pos rfl]
      exact holds.take (by simp only [Layout.unpublishedAt] at published ⊢; omega)
    · exact fun apart => absurd rfl apart
    · exact fun _ _ _ => Iff.rfl
    · exact fun later => absurd later describes.front_notMem_tail
    · exact describes.pending
  · exact ⟨rfl, rfl, by rw [ReaderWriterQueue.put_blocks_self]; rfl⟩
  · rw [taken]
    rfl
  · apply ConsumerStep.modify describes
    · rfl
    · rfl
    · rfl
    · rw [shape, List.append_assoc, List.singleton_append]
    · refine ⟨0, ?_, ?_⟩
      · rw [Nat.add_zero, Nat.mod_eq_of_lt holds.front]
        rfl
      · rw [shape, released, List.length_cons]
        omega

theorem storeFront_leads {frontBlock blockFront : Nat} {result : α} (describes : layout.Describes queue)
    (knows : (DequeuePoint.storeFront frontBlock blockFront result).Knows sure layout queue)
    (taken : layout.gone = before ++ [result]) :
    DequeueLeads sure before layout queue (.storeFront frontBlock blockFront result) := by
  obtain ⟨released, rfl, rfl⟩ := knows
  have holds := describes.blocks _ describes.front_mem
  rw [Layout.releasedAt, if_pos rfl, released] at holds
  have same : Function.update layout.items queue.frontBlock (layout.items queue.frontBlock) = layout.items :=
    Function.update_eq_self _ _
  refine ⟨_, _, { layout with
      items := Function.update layout.items queue.frontBlock (layout.items queue.frontBlock)
      released := 0 }, by rw [ReaderWriterQueue.tryDequeue, describes.block? describes.front_mem]; rfl, ?_, ?_, ?_, ?_⟩
  · apply describes.modify
    · rfl
    · rw [if_pos rfl]
      exact holds.storeFront
    · exact fun apart => absurd rfl apart
    · exact fun _ _ _ => Iff.rfl
    · exact fun later => absurd later describes.front_notMem_tail
    · exact describes.pending
  · exact ⟨rfl, by simp⟩
  · exact taken
  · apply ConsumerStep.modify describes
    · rfl
    · rfl
    · rfl
    · rfl
    · exact ⟨1, rfl, by rw [released]; omega⟩

theorem Exhausted.shape (describes : layout.Describes queue) (exhausted : DequeuePoint.Exhausted layout queue) :
    ∃ rest, layout.used = queue.frontBlock :: (queue.blocks queue.frontBlock).next :: rest :=
  describes.ring.used_of_ne exhausted.further

theorem Exhausted.next_mem (describes : layout.Describes queue) (exhausted : DequeuePoint.Exhausted layout queue) :
    (queue.blocks queue.frontBlock).next ∈ layout.used.tail := by
  obtain ⟨rest, shape⟩ := Exhausted.shape describes exhausted
  rw [shape]
  exact List.mem_cons_self

theorem loadNextTail_dequeue_leads {nextBlock nextBlockFront : Nat} (describes : layout.Describes queue)
    (knows : (DequeuePoint.loadNextTail nextBlock nextBlockFront : DequeuePoint α).Knows sure layout queue)
    (taken : layout.gone = before ++ []) :
    DequeueLeads sure before layout queue (.loadNextTail nextBlock nextBlockFront) := by
  obtain ⟨exhausted, rfl, rfl⟩ := knows
  have later := Exhausted.next_mem describes exhausted
  have member := List.mem_append_left layout.free (List.mem_of_mem_tail later)
  have holds := describes.blocks _ member
  have filled : (queue.blocks (queue.blocks queue.frontBlock).next).front ≠
      (queue.blocks (queue.blocks queue.frontBlock).next).tail := by
    intro same
    have none := holds.front_eq_tail_iff.mp same
    have some := describes.later _ later
    simp only [Layout.published] at some
    omega
  have loaded : queue.tryDequeue (.loadNextTail (queue.blocks queue.frontBlock).next
      (queue.blocks (queue.blocks queue.frontBlock).next).front) =
        some (queue, .storeFrontBlock (queue.blocks queue.frontBlock).next
          (queue.blocks (queue.blocks queue.frontBlock).next).front) := by
    simp only [ReaderWriterQueue.tryDequeue, describes.block? member, Option.bind_some, ne_eq, filled, not_false_iff,
      if_true]
  exact .load describes taken loaded ⟨exhausted, rfl, rfl⟩ rfl

theorem storeFrontBlock_leads {nextBlock nextBlockFront : Nat} (describes : layout.Describes queue)
    (knows : (DequeuePoint.storeFrontBlock nextBlock nextBlockFront : DequeuePoint α).Knows sure layout queue)
    (taken : layout.gone = before ++ []) :
    DequeueLeads sure before layout queue (.storeFrontBlock nextBlock nextBlockFront) := by
  obtain ⟨exhausted, rfl, rfl⟩ := knows
  obtain ⟨rest, shape⟩ := Exhausted.shape describes exhausted
  have later := Exhausted.next_mem describes exhausted
  have ring := describes.ring
  rw [shape] at ring
  have inside : ∀ place, place ∈ ((queue.blocks queue.frontBlock).next :: rest) ++ (layout.free ++ [queue.frontBlock]) ↔
      place ∈ layout.used ++ layout.free := by
    intro place
    rw [shape]
    simp only [List.cons_append, List.mem_cons, List.mem_append, List.not_mem_nil, or_false]
    tauto
  have unreleased : ∀ place front : Nat, (if place = front then layout.released else 0) = 0 := by
    intro place front
    rw [exhausted.released, ite_self]
  have sameOccupied : ∀ place, layout.releasedAt queue place = 0 := fun place => unreleased place _
  refine ⟨_, _, { layout with
      used := (queue.blocks queue.frontBlock).next :: rest
      free := layout.free ++ [queue.frontBlock] }, rfl, ?_, ?_, ?_, ?_⟩
  · refine ⟨ring.release, ?_, ?_, describes.largest, ?_, ?_, ?_⟩
    · intro new member
      rw [inside new]
      exact describes.fresh new member
    · intro place
      rw [inside place]
      exact describes.allocated place
    · intro place member
      have before := describes.blocks place ((inside place).mp member)
      rw [sameOccupied] at before
      change (queue.blocks place).Holds (if place = (queue.blocks queue.frontBlock).next then layout.released else 0) _ _
      rw [unreleased]
      exact before
    · intro place member
      apply describes.later place
      rw [shape]
      exact List.mem_cons_of_mem _ member
    · intro place member inUse
      apply describes.pending place member
      rw [shape]
      exact List.mem_cons_of_mem _ inUse
  · exact ⟨exhausted.released, rfl, rfl, describes.later _ later⟩
  · exact taken
  · refine ⟨rfl, fun _ => ⟨rfl, rfl, rfl⟩, ?_, ?_, rfl, rfl, List.prefix_append _ _, fun _ _ => ⟨rfl, rfl⟩, 0, ?_, ?_⟩
    · simp only [Layout.history, shape, List.flatMap_cons, exhausted.empty, List.nil_append]
    · simp only [Layout.prepared, List.flatMap_append, List.flatMap_cons, List.flatMap_nil, exhausted.empty,
        List.append_nil]
    · rw [Nat.add_zero, Nat.mod_eq_of_lt (describes.blocks _ describes.tail_mem).front]
    · change 0 + ((if queue.tailBlock = (queue.blocks queue.frontBlock).next then layout.released else 0) + _) =
        layout.releasedAt queue queue.tailBlock + _
      rw [unreleased, sameOccupied, Nat.zero_add]

/-- Every step of `try_dequeue` is defined and leads to a point of which the same
is true. -/
theorem dequeue_leads {point : DequeuePoint α} (describes : layout.Describes queue)
    (knows : point.Knows sure layout queue) (taken : layout.gone = before ++ point.inHand)
    (busy : ∀ result, point ≠ .returned result) : DequeueLeads sure before layout queue point := by
  cases point with
  | loadTailBlock => exact loadTailBlock_leads describes knows taken
  | loadFrontBlock tailBlockAtStart => exact .load describes taken rfl ⟨knows, rfl⟩ rfl
  | loadTail tailBlockAtStart frontBlock => exact loadTail_dequeue_leads describes knows taken
  | loadFront tailBlockAtStart frontBlock blockTail => exact loadFront_dequeue_leads describes knows taken
  | take frontBlock blockFront => exact take_leads describes knows (taken.trans (List.append_nil _))
  | storeFront frontBlock blockFront result => exact storeFront_leads describes knows taken
  | loadNext frontBlock =>
      obtain ⟨exhausted, rfl⟩ := knows
      have loaded : queue.tryDequeue (.loadNext queue.frontBlock) =
          some (queue, .loadNextFront (queue.blocks queue.frontBlock).next) := by
        rw [ReaderWriterQueue.tryDequeue, describes.block? describes.front_mem]
        rfl
      exact .load describes taken loaded ⟨exhausted, rfl⟩ rfl
  | loadNextFront nextBlock =>
      obtain ⟨exhausted, rfl⟩ := knows
      have member := List.mem_append_left layout.free
        (List.mem_of_mem_tail (Exhausted.next_mem describes exhausted))
      have loaded : queue.tryDequeue (.loadNextFront (queue.blocks queue.frontBlock).next) =
          some (queue, .loadNextTail (queue.blocks queue.frontBlock).next
            (queue.blocks (queue.blocks queue.frontBlock).next).front) := by
        rw [ReaderWriterQueue.tryDequeue, describes.block? member]
        rfl
      exact .load describes taken loaded ⟨exhausted, rfl, rfl⟩ rfl
  | loadNextTail nextBlock nextBlockFront => exact loadNextTail_dequeue_leads describes knows taken
  | storeFrontBlock nextBlock nextBlockFront => exact storeFrontBlock_leads describes knows taken
  | returned result => exact absurd rfl (busy result)

end Steps

section Interference

variable {sure : Prop} {layout layout' : Layout α} {queue queue' : ReaderWriterQueue α}

/-- A front block that is not the tail block does not become it. -/
theorem ProducerStep.further (describes : layout.Describes queue) (describes' : layout'.Describes queue')
    (step : Layout.ProducerStep layout queue layout' queue') (further : queue.frontBlock ≠ queue.tailBlock) :
    queue'.frontBlock ≠ queue'.tailBlock := by
  obtain ⟨rest, shape⟩ := describes.ring.used_of_ne further
  obtain ⟨more, longer⟩ := step.used
  have ring := describes'.ring
  rw [← longer, shape, List.cons_append, List.cons_append, ← step.frontBlock] at ring
  exact ring.tail_ne

theorem Started.stable {tailBlockAtStart : Nat} (describes : layout.Describes queue)
    (describes' : layout'.Describes queue') (step : Layout.ProducerStep layout queue layout' queue')
    (started : DequeuePoint.Started sure layout queue tailBlockAtStart) :
    DequeuePoint.Started sure layout' queue' tailBlockAtStart where
  released := step.released.trans started.released
  further := by
    rw [step.frontBlock]
    intro apart
    rw [← step.frontBlock]
    exact ProducerStep.further describes describes' step (started.further apart)
  here := by
    rw [step.frontBlock]
    intro certain same
    exact Nat.lt_of_lt_of_le (started.here certain same) (step.published _ describes.ring.front_mem)

theorem Exhausted.stable (describes : layout.Describes queue) (describes' : layout'.Describes queue')
    (step : Layout.ProducerStep layout queue layout' queue') (exhausted : DequeuePoint.Exhausted layout queue) :
    DequeuePoint.Exhausted layout' queue' ∧
      (queue'.blocks queue'.frontBlock).next = (queue.blocks queue.frontBlock).next := by
  have settled := step.settled _ describes.ring.front_mem exhausted.further
  refine ⟨⟨step.released.trans exhausted.released, ?_, ?_⟩, ?_⟩
  · exact ProducerStep.further describes describes' step exhausted.further
  · rw [step.frontBlock, settled.2, exhausted.empty]
  · rw [step.frontBlock, settled.1]

/-- In a block that the producer has left, the published items stay the same. -/
theorem ProducerStep.published_eq (describes : layout.Describes queue) (describes' : layout'.Describes queue')
    (step : Layout.ProducerStep layout queue layout' queue') (further : queue.frontBlock ≠ queue.tailBlock) :
    layout'.published queue.frontBlock = layout.published queue.frontBlock := by
  have settled := step.settled _ describes.ring.front_mem further
  have member' := describes'.ring.front_mem
  have further' := ProducerStep.further describes describes' step further
  have none' := describes'.unpublishedAt_of_ne member' further'
  rw [step.frontBlock] at none'
  rw [Layout.published, Layout.published, settled.2, none',
    describes.unpublishedAt_of_ne describes.ring.front_mem further]

/-- No step of the producer makes untrue what a call of `try_dequeue` knows. -/
theorem DequeuePoint.stable {point : DequeuePoint α} (describes : layout.Describes queue)
    (describes' : layout'.Describes queue') (step : Layout.ProducerStep layout queue layout' queue')
    (knows : point.Knows sure layout queue) : point.Knows sure layout' queue' := by
  have front := describes.ring.front_mem
  cases point with
  | loadTailBlock =>
      refine ⟨step.released.trans knows.1, fun certain => ?_⟩
      obtain ⟨block, member, found⟩ := knows.2 certain
      exact ⟨block, step.used.subset member, Nat.lt_of_lt_of_le found (step.published block member)⟩
  | loadFrontBlock => exact Started.stable describes describes' step knows
  | loadTail =>
      obtain ⟨started, rfl⟩ := knows
      exact ⟨Started.stable describes describes' step started, step.frontBlock.symm⟩
  | loadFront =>
      obtain ⟨started, rfl, count, most, rfl, exact, least⟩ := knows
      refine ⟨Started.stable describes describes' step started, step.frontBlock.symm, count,
        Nat.le_trans most (step.published _ front), ?_, ?_, least⟩
      · rw [(step.blocks _ front).1, (step.blocks _ front).2]
      · intro apart
        rw [ProducerStep.published_eq describes describes' step (started.further apart)]
        exact exact apart
  | take =>
      obtain ⟨released, rfl, rfl, published⟩ := knows
      exact ⟨step.released.trans released, step.frontBlock.symm, (step.blocks _ front).1.symm,
        Nat.lt_of_lt_of_le published (step.published _ front)⟩
  | storeFront =>
      obtain ⟨released, rfl, rfl⟩ := knows
      exact ⟨step.released.trans released, step.frontBlock.symm,
        by rw [(step.blocks _ front).1, (step.blocks _ front).2]⟩
  | loadNext =>
      obtain ⟨exhausted, rfl⟩ := knows
      exact ⟨(Exhausted.stable describes describes' step exhausted).1, step.frontBlock.symm⟩
  | loadNextFront =>
      obtain ⟨exhausted, rfl⟩ := knows
      have later := Exhausted.stable describes describes' step exhausted
      exact ⟨later.1, later.2.symm⟩
  | loadNextTail | storeFrontBlock =>
      obtain ⟨exhausted, rfl, rfl⟩ := knows
      have later := Exhausted.stable describes describes' step exhausted
      have member := List.mem_of_mem_tail (Exhausted.next_mem describes exhausted)
      exact ⟨later.1, later.2.symm, (step.blocks _ member).1.symm⟩
  | returned => exact ⟨step.released.trans knows.1, knows.2⟩

end Interference

theorem DequeuePoint.Knows.mono {sure certain : Prop} (implies : certain → sure) {layout : Layout α}
    {queue : ReaderWriterQueue α} {point : DequeuePoint α} (knows : point.Knows sure layout queue) :
    point.Knows certain layout queue := by
  have started {tailBlockAtStart : Nat} (started : DequeuePoint.Started sure layout queue tailBlockAtStart) :
      DequeuePoint.Started certain layout queue tailBlockAtStart :=
    ⟨started.released, started.further, fun known => started.here (implies known)⟩
  cases point with
  | loadTailBlock => exact ⟨knows.1, fun known => knows.2 (implies known)⟩
  | loadFrontBlock => exact started knows
  | loadTail => exact ⟨started knows.1, knows.2⟩
  | loadFront =>
      obtain ⟨begun, here, count, most, tail, exact, least⟩ := knows
      exact ⟨started begun, here, count, most, tail, exact, fun known => least (implies known)⟩
  | returned => exact ⟨knows.1, fun known => knows.2 (implies known)⟩
  | _ => exact knows

namespace Consumer

/-- Whether the consumer may make a move. -/
def Able (consumer : Consumer α) : ConsumerMove → Prop
  | .tryDequeue => consumer.call = none
  | .proceed => consumer.call ≠ none

def Knows (sure : Prop) (layout : Layout α) (queue : ReaderWriterQueue α) (consumer : Consumer α) : Prop :=
  match consumer.call with
  | none => layout.released = 0 ∧ layout.gone = consumer.returned.reduceOption
  | some point => point.Knows sure layout queue ∧ (∀ result, point ≠ .returned result) ∧
      layout.gone = consumer.returned.reduceOption ++ point.inHand

variable {sure : Prop} {consumer : Consumer α} {layout : Layout α} {queue : ReaderWriterQueue α}

theorem arrive_knows {point : DequeuePoint α} (knows : point.Knows sure layout queue)
    (taken : layout.gone = consumer.returned.reduceOption ++ point.inHand) :
    (consumer.arrive point).Knows sure layout queue := by
  cases point with
  | returned result =>
      refine ⟨knows.1, ?_⟩
      cases result with
      | none => simpa [arrive, List.reduceOption_append, DequeuePoint.inHand] using taken
      | some result => simpa [arrive, List.reduceOption_append, DequeuePoint.inHand] using taken
  | _ => exact ⟨knows, by simp, taken⟩

theorem begin_knows (knows : consumer.Knows sure layout queue) (idle : consumer.call = none)
    (visible : sure → ∃ block ∈ layout.used, 0 < layout.published block) :
    Knows sure layout queue ⟨some .loadTailBlock, consumer.returned⟩ := by
  rw [Knows, idle] at knows
  exact ⟨⟨knows.1, visible⟩, by simp, knows.2.trans (List.append_nil _).symm⟩

theorem proceed_leads {point : DequeuePoint α} (describes : layout.Describes queue)
    (knows : consumer.Knows sure layout queue) (calling : consumer.call = some point) :
    DequeueLeads sure consumer.returned.reduceOption layout queue point := by
  rw [Knows, calling] at knows
  exact dequeue_leads describes knows.1 knows.2.2 knows.2.1

theorem proceeds : Proceeds step Able Layout.Describes (Knows (α := α) False) Layout.ConsumerStep := by
  intro layout queue consumer move describes knows able
  cases move with
  | tryDequeue =>
      have idle : consumer.call = none := able
      exact ⟨queue, ⟨some .loadTailBlock, consumer.returned⟩, layout, by rw [step, idle]; rfl, describes,
        begin_knows knows idle (by simp), .refl describes⟩
  | proceed =>
      obtain ⟨point, calling⟩ := Option.ne_none_iff_exists'.mp able
      obtain ⟨queue', point', layout', went, describes', knows', taken', promise⟩ :=
        proceed_leads describes knows calling
      exact ⟨queue', consumer.arrive point', layout', by rw [step, calling, Option.bind_some, went]; rfl, describes',
        arrive_knows knows' taken', promise⟩

theorem stable : Stable Layout.Describes (Knows (α := α) sure) Layout.ProducerStep := by
  intro layout layout' queue queue' consumer describes describes' rely knows
  rw [Knows] at knows ⊢
  split at knows
  · exact ⟨rely.released.trans knows.1, rely.gone.trans knows.2⟩
  · exact ⟨DequeuePoint.stable describes describes' rely knows.1, knows.2.1, rely.gone.trans knows.2.2⟩

theorem able_of_step {move : ConsumerMove} (taken : (step queue consumer move).isSome) : consumer.Able move := by
  cases move with
  | tryDequeue =>
      by_contra busy
      simp [step, Able] at taken busy
      exact busy taken
  | proceed =>
      intro idle
      simp [step, idle] at taken

theorem step_tryDequeue {memory : ReaderWriterQueue α} {next : Consumer α}
    (taken : step queue consumer .tryDequeue = some (memory, next)) :
    consumer.call = none ∧ memory = queue ∧ next = { consumer with call := some .loadTailBlock } := by
  rw [step] at taken
  split at taken
  · rename_i idle
    cases taken
    exact ⟨Option.isNone_iff_eq_none.mp idle, rfl, rfl⟩
  · cases taken

theorem Knows.mono {sure certain : Prop} {layout : Layout α} {queue : ReaderWriterQueue α}
    {consumer : Consumer α} (implies : consumer.call ≠ none → certain → sure)
    (knows : consumer.Knows sure layout queue) : consumer.Knows certain layout queue := by
  rw [Knows] at knows ⊢
  split at knows
  · exact knows
  · rename_i point calling
    exact ⟨DequeuePoint.Knows.mono (implies (by rw [calling]; simp)) knows.1, knows.2⟩

theorem arrive_returned {consumer : Consumer α} {point : DequeuePoint α}
    (busy : (consumer.arrive point).call ≠ none) : (consumer.arrive point).returned = consumer.returned := by
  cases point with
  | returned result => exact absurd rfl busy
  | _ => rfl

theorem arrive_refused {consumer : Consumer α} {point : DequeuePoint α}
    (refused : (consumer.arrive point).returned = consumer.returned ++ [none]) : point = .returned none := by
  cases point with
  | returned result =>
      obtain rfl : result = none := by simpa [arrive] using refused
      rfl
  | _ => simp [arrive] at refused

end Consumer

end Webapp.Queues

import Webapp.Queues.Layout

namespace Webapp.Queues

open Webapp.Data

/-! The producer's side of `ReaderWriterQueue`: what `inner_enqueue` knows of the
memory at each of its points, and that each of its steps leads to the next point
with what is known there.
-/

variable {α : Type}

namespace Layout

/-- No call of the producer has left anything behind that is not published. -/
structure Quiet (layout : Layout α) : Prop where
  unpublished : layout.unpublished = none
  fresh : layout.fresh = none
  prepared : layout.prepared = []

theorem ProducerStep.refl (layout : Layout α) (queue : ReaderWriterQueue α) :
    ProducerStep layout queue layout queue :=
  ⟨rfl, rfl, rfl, List.prefix_refl _, fun _ _ => ⟨rfl, rfl⟩, fun _ _ => Nat.le_refl _, fun _ _ _ => ⟨rfl, rfl⟩⟩

end Layout

namespace EnqueuePoint

/-- What the call has put among the items in use so far. -/
def entered (element : α) : EnqueuePoint → List α
  | .storeTail _ _ | .returned true => [element]
  | _ => []

/-- The free block the producer is about to fill is the next one. -/
def Ahead (layout : Layout α) (block : Nat) : Prop := layout.free.head? = some block

/-- The front that was loaded may since have moved on, over slots that are still
counted as occupied. -/
def Behind (layout : Layout α) (queue : ReaderWriterQueue α) (block front : Nat) : Prop :=
  ∃ count, (queue.blocks block).front = (front + count) % (queue.blocks block).size ∧
    count + layout.occupied queue block < (queue.blocks block).size ∧ front < (queue.blocks block).size

def Knows (element : α) (layout : Layout α) (queue : ReaderWriterQueue α) : EnqueuePoint → Prop
  | .loadTailBlock | .returned _ => layout.Quiet
  | .loadFront tailBlock | .loadNext tailBlock | .allocate tailBlock =>
      layout.Quiet ∧ tailBlock = queue.tailBlock
  | .loadTail tailBlock blockFront =>
      layout.Quiet ∧ tailBlock = queue.tailBlock ∧ Behind layout queue tailBlock blockFront
  | .construct tailBlock blockTail nextBlockTail =>
      layout.Quiet ∧ tailBlock = queue.tailBlock ∧ blockTail = (queue.blocks tailBlock).tail ∧
        nextBlockTail = (blockTail + 1) % (queue.blocks tailBlock).size ∧
        layout.occupied queue tailBlock + 1 < (queue.blocks tailBlock).size
  | .storeTail tailBlock nextBlockTail =>
      layout.unpublished = some tailBlock ∧ layout.fresh = none ∧ layout.prepared = [] ∧
        tailBlock = queue.tailBlock ∧
        nextBlockTail = ((queue.blocks tailBlock).tail + 1) % (queue.blocks tailBlock).size
  | .loadFrontBlock tailBlock next =>
      layout.Quiet ∧ tailBlock = queue.tailBlock ∧ next = (queue.blocks tailBlock).next
  | .reloadNext tailBlock =>
      layout.Quiet ∧ tailBlock = queue.tailBlock ∧ Ahead layout (queue.blocks tailBlock).next
  | .loadNextFront tailBlockNext => layout.Quiet ∧ Ahead layout tailBlockNext
  | .loadNextTail tailBlockNext nextBlockFront =>
      layout.Quiet ∧ Ahead layout tailBlockNext ∧ nextBlockFront = (queue.blocks tailBlockNext).front
  | .constructNext tailBlockNext nextBlockTail =>
      layout.Quiet ∧ Ahead layout tailBlockNext ∧ nextBlockTail = (queue.blocks tailBlockNext).tail
  | .storeNextTail tailBlockNext nextBlockTail =>
      layout.unpublished = some tailBlockNext ∧ layout.fresh = none ∧ layout.prepared = [element] ∧
        Ahead layout tailBlockNext ∧ layout.items tailBlockNext = [element] ∧
        nextBlockTail = (queue.blocks tailBlockNext).tail
  | .link tailBlock newBlock =>
      layout.unpublished = none ∧ layout.fresh = some newBlock ∧ layout.prepared = [] ∧
        tailBlock = queue.tailBlock ∧ (queue.blocks newBlock).Holds 0 0 [element] ∧
        (queue.blocks newBlock).next = (queue.blocks tailBlock).next
  | .storeTailBlock block =>
      layout.unpublished = none ∧ layout.fresh = none ∧ layout.prepared = [element] ∧
        Ahead layout block ∧ layout.items block = [element]

end EnqueuePoint

/-- The step of a call leads to a point where again is known what the point says. -/
def EnqueueLeads (canAlloc : Bool) (element : α) (before : List α) (layout : Layout α) (queue : ReaderWriterQueue α)
    (point : EnqueuePoint) : Prop :=
  ∃ queue' point' layout', queue.innerEnqueue canAlloc element point = some (queue', point') ∧
    layout'.Describes queue' ∧ point'.Knows element layout' queue' ∧
    layout'.history = before ++ point'.entered element ∧ Layout.ProducerStep layout queue layout' queue'

section Steps

variable {canAlloc : Bool} {element : α} {before : List α} {layout : Layout α} {queue : ReaderWriterQueue α}

/-- A step that only loads. -/
theorem EnqueueLeads.load {point point' : EnqueuePoint} (describes : layout.Describes queue)
    (arrived : layout.history = before ++ point.entered element)
    (taken : queue.innerEnqueue canAlloc element point = some (queue, point'))
    (knows : point'.Knows element layout queue) (same : point'.entered element = point.entered element) :
    EnqueueLeads canAlloc element before layout queue point :=
  ⟨queue, point', layout, taken, describes, knows, by rw [arrived, same], .refl layout queue⟩

theorem flatMap_update_last {places : List Nat} {items : Nat → List α} {last : Nat} (nodup : places.Nodup)
    (ends : places.getLast? = some last) (more : List α) :
    places.flatMap (Function.update items last (items last ++ more)) = places.flatMap items ++ more := by
  obtain ⟨earlier, rfl⟩ := List.getLast?_eq_some_iff.mp ends
  have absent : last ∉ earlier := by
    rw [List.nodup_append] at nodup
    exact fun member => nodup.2.2 last member last (by simp) rfl
  rw [List.flatMap_append, List.flatMap_append, Layout.flatMap_update_of_notMem absent]
  simp

theorem constructAt_tail {block : Block α} {number released : Nat} {items : List α} (found : queue.block? number = some block)
    (holds : block.Holds released 0 items) (element : α) :
    queue.constructAt number block.tail element = some (queue.put number (block.construct block.tail element)) := by
  simp [ReaderWriterQueue.constructAt, found, holds.tail_lt, holds.tail_vacant]

/-- The producer changes one block, in use only if it is the tail block. -/
theorem ProducerStep.modify {number : Nat} {unpublished : Option Nat} {block : Block α} {items : List α}
    (which : number ∈ layout.used → number = queue.tailBlock)
    (front : block.front = (queue.blocks number).front) (size : block.size = (queue.blocks number).size)
    (more : number ∈ layout.used →
      layout.published number ≤ items.length - if unpublished = some number then 1 else 0)
    (same : ∀ other ∈ layout.used, other ≠ number → (unpublished = some other ↔ layout.unpublished = some other)) :
    Layout.ProducerStep layout queue
      { layout with items := Function.update layout.items number items, unpublished } (queue.put number block) where
  frontBlock := rfl
  released := rfl
  gone := rfl
  used := List.prefix_refl _
  blocks := by
    intro other _
    by_cases here : other = number
    · simp [ReaderWriterQueue.put, here, front, size]
    · simp [ReaderWriterQueue.put, Function.update_of_ne here]
  published := by
    intro other member
    by_cases here : other = number
    · subst here
      simpa [Layout.published, Layout.unpublishedAt] using more member
    · simp [Layout.published, Layout.unpublishedAt, Function.update_of_ne here, same other member here]
  settled := by
    intro other member apart
    have elsewhere : other ≠ number := fun here => apart (here.trans (which (here ▸ member)))
    simp [ReaderWriterQueue.put, Function.update_of_ne elsewhere]

theorem construct_leads {tailBlock blockTail nextBlockTail : Nat} (describes : layout.Describes queue)
    (knows : (EnqueuePoint.construct tailBlock blockTail nextBlockTail).Knows element layout queue)
    (arrived : layout.history = before) :
    EnqueueLeads canAlloc element before layout queue (.construct tailBlock blockTail nextBlockTail) := by
  obtain ⟨quiet, rfl, rfl, rfl, room⟩ := knows
  have holds := describes.blocks _ describes.tail_mem
  have none : layout.unpublishedAt queue.tailBlock = 0 := by simp [Layout.unpublishedAt, quiet.unpublished]
  rw [none] at holds
  have constructed := constructAt_tail (describes.block? describes.tail_mem) holds element
  refine ⟨_, _, { layout with
      items := Function.update layout.items queue.tailBlock (layout.items queue.tailBlock ++ [element])
      unpublished := some queue.tailBlock }, by rw [ReaderWriterQueue.innerEnqueue, constructed]; rfl, ?_, ?_, ?_, ?_⟩
  · apply describes.modify
    · rfl
    · rw [if_pos rfl]
      exact holds.construct room element
    · exact fun _ => rfl
    · intro other _ apart
      simp [quiet.unpublished, apart.symm]
    · intro later
      have before := describes.later _ later
      simpa [Layout.published, none] using before
    · intro other member _
      simpa using member.symm
  · refine ⟨rfl, quiet.fresh, ?_, rfl, ?_⟩
    · rw [← quiet.prepared]
      exact Layout.flatMap_update_of_notMem (fun member => describes.free_notMem_used member describes.ring.tail_mem) _
    · simp [ReaderWriterQueue.put, Block.construct]
  · rw [← arrived]
    have nodup := (List.nodup_append.mp describes.ring.nodup).1
    simp only [Layout.history, flatMap_update_last nodup describes.ring.last, EnqueuePoint.entered, List.append_assoc]
  · apply ProducerStep.modify
    · exact fun _ => rfl
    · rfl
    · rfl
    · simp [Layout.published, none]
    · intro other _ apart
      simp [quiet.unpublished, apart.symm]

theorem storeTail_leads {tailBlock nextBlockTail : Nat} (describes : layout.Describes queue)
    (knows : (EnqueuePoint.storeTail tailBlock nextBlockTail).Knows element layout queue)
    (arrived : layout.history = before ++ [element]) :
    EnqueueLeads canAlloc element before layout queue (.storeTail tailBlock nextBlockTail) := by
  obtain ⟨pending, fresh, prepared, rfl, rfl⟩ := knows
  have holds := describes.blocks _ describes.tail_mem
  have one : layout.unpublishedAt queue.tailBlock = 1 := by simp [Layout.unpublishedAt, pending]
  rw [one] at holds
  have same : Function.update layout.items queue.tailBlock (layout.items queue.tailBlock) = layout.items :=
    Function.update_eq_self _ _
  refine ⟨_, _, { layout with
      items := Function.update layout.items queue.tailBlock (layout.items queue.tailBlock)
      unpublished := none }, by rw [ReaderWriterQueue.innerEnqueue, describes.block? describes.tail_mem]; rfl,
      ?_, ?_, ?_, ?_⟩
  · apply describes.modify
    · rfl
    · exact holds.publish
    · exact fun _ => rfl
    · intro other _ apart
      simp [pending, apart.symm]
    · intro later
      have before := describes.later _ later
      simp only [Layout.published, one] at before
      simp
      omega
    · intro other member
      cases member
  · rw [same]
    exact ⟨rfl, fresh, prepared⟩
  · rw [same]
    exact arrived
  · apply ProducerStep.modify
    · exact fun _ => rfl
    · rfl
    · rfl
    · simp [Layout.published]
    · intro other _ apart
      simp [pending, apart.symm]

theorem Ahead.shape {block : Nat} (ahead : EnqueuePoint.Ahead layout block) : ∃ rest, layout.free = block :: rest := by
  obtain ⟨rest, shape⟩ := List.head?_eq_some_iff.mp ahead
  exact ⟨rest, shape⟩

theorem Ahead.mem {block : Nat} (ahead : EnqueuePoint.Ahead layout block) : block ∈ layout.free :=
  List.mem_of_mem_head? ahead

theorem constructNext_leads {tailBlockNext nextBlockTail : Nat} (describes : layout.Describes queue)
    (knows : (EnqueuePoint.constructNext tailBlockNext nextBlockTail).Knows element layout queue)
    (arrived : layout.history = before) :
    EnqueueLeads canAlloc element before layout queue (.constructNext tailBlockNext nextBlockTail) := by
  obtain ⟨quiet, ahead, rfl⟩ := knows
  obtain ⟨rest, shape⟩ := Ahead.shape ahead
  have member : tailBlockNext ∈ layout.used ++ layout.free := List.mem_append_right _ (Ahead.mem ahead)
  have outside := describes.free_notMem_used (Ahead.mem ahead)
  have behind := describes.free_ne_front (Ahead.mem ahead)
  have holds := describes.blocks _ member
  have none : layout.unpublishedAt tailBlockNext = 0 := by simp [Layout.unpublishedAt, quiet.unpublished]
  have zero : layout.releasedAt queue tailBlockNext = 0 := by simp [Layout.releasedAt, behind]
  have empty := quiet.prepared
  rw [Layout.prepared, shape, List.flatMap_cons, List.append_eq_nil_iff] at empty
  rw [none, zero, empty.1] at holds
  have room : 0 + ([] : List α).length + 1 < (queue.blocks tailBlockNext).size := by
    obtain ⟨exponent, size⟩ := holds.size
    rw [size, pow_succ]
    have := Nat.two_pow_pos exponent
    simp only [List.length_nil]
    omega
  have constructed := constructAt_tail (describes.block? member) holds element
  have absent : tailBlockNext ∉ rest := by
    have nodup := (List.nodup_append.mp describes.ring.nodup).2.1
    rw [shape] at nodup
    exact (List.nodup_cons.mp nodup).1
  refine ⟨_, _, { layout with
      items := Function.update layout.items tailBlockNext [element]
      unpublished := some tailBlockNext }, by rw [ReaderWriterQueue.innerEnqueue, constructed]; rfl, ?_, ?_, ?_, ?_⟩
  · apply describes.modify
    · rfl
    · rw [if_neg behind, if_pos rfl]
      exact holds.construct room element
    · exact fun _ => rfl
    · intro other _ apart
      simp [quiet.unpublished, apart.symm]
    · intro later
      exact absurd (List.mem_of_mem_tail later) outside
    · intro other member inUse
      cases member
      exact absurd inUse outside
  · refine ⟨rfl, quiet.fresh, ?_, ahead, Function.update_self _ _ _, ?_⟩
    · simp only [Layout.prepared, shape, List.flatMap_cons, Function.update_self,
        Layout.flatMap_update_of_notMem absent, empty.2, List.append_nil]
    · simp [ReaderWriterQueue.put, Block.construct]
  · rw [← arrived]
    simp only [Layout.history, Layout.flatMap_update_of_notMem outside, EnqueuePoint.entered, List.append_nil]
  · apply ProducerStep.modify
    · exact fun inUse => absurd inUse outside
    · rfl
    · rfl
    · exact fun inUse => absurd inUse outside
    · intro other _ apart
      simp [quiet.unpublished, apart.symm]

theorem storeNextTail_leads {tailBlockNext nextBlockTail : Nat} (describes : layout.Describes queue)
    (knows : (EnqueuePoint.storeNextTail tailBlockNext nextBlockTail).Knows element layout queue)
    (arrived : layout.history = before) :
    EnqueueLeads canAlloc element before layout queue (.storeNextTail tailBlockNext nextBlockTail) := by
  obtain ⟨pending, fresh, prepared, ahead, filled, rfl⟩ := knows
  have member : tailBlockNext ∈ layout.used ++ layout.free := List.mem_append_right _ (Ahead.mem ahead)
  have outside := describes.free_notMem_used (Ahead.mem ahead)
  have holds := describes.blocks _ member
  have one : layout.unpublishedAt tailBlockNext = 1 := by simp [Layout.unpublishedAt, pending]
  rw [one] at holds
  have same : Function.update layout.items tailBlockNext (layout.items tailBlockNext) = layout.items :=
    Function.update_eq_self _ _
  refine ⟨_, _, { layout with
      items := Function.update layout.items tailBlockNext (layout.items tailBlockNext)
      unpublished := none }, by rw [ReaderWriterQueue.innerEnqueue, describes.block? member]; rfl, ?_, ?_, ?_, ?_⟩
  · apply describes.modify
    · rfl
    · rw [holds.mask]
      exact holds.publish
    · exact fun _ => rfl
    · intro other _ apart
      simp [pending, apart.symm]
    · intro later
      exact absurd (List.mem_of_mem_tail later) outside
    · intro other member
      cases member
  · rw [same]
    exact ⟨rfl, fresh, prepared, ahead, filled⟩
  · rw [same]
    simp only [EnqueuePoint.entered, List.append_nil]
    exact arrived
  · apply ProducerStep.modify
    · exact fun inUse => absurd inUse outside
    · rfl
    · rfl
    · exact fun inUse => absurd inUse outside
    · intro other _ apart
      simp [pending, apart.symm]

theorem storeTailBlock_leads {block : Nat} (describes : layout.Describes queue)
    (knows : (EnqueuePoint.storeTailBlock block).Knows element layout queue) (arrived : layout.history = before) :
    EnqueueLeads canAlloc element before layout queue (.storeTailBlock block) := by
  obtain ⟨pending, fresh, prepared, ahead, filled⟩ := knows
  obtain ⟨rest, shape⟩ := Ahead.shape ahead
  have same : (layout.used ++ [block]) ++ rest = layout.used ++ layout.free := by rw [shape]; simp
  have ring := describes.ring
  rw [shape] at ring
  refine ⟨_, _, { layout with used := layout.used ++ [block], free := rest }, rfl, ?_, ?_, ?_, ?_⟩
  · refine ⟨ring.extend, ?_, ?_, describes.largest, ?_, ?_, ?_⟩
    · intro new member
      rw [fresh] at member
      cases member
    · intro place
      rw [same]
      exact describes.allocated place
    · intro place member
      rw [same] at member
      exact describes.blocks place member
    · intro place member
      obtain ⟨others, used⟩ := describes.front_shape
      simp only [used, List.cons_append, List.tail_cons, List.mem_append, List.mem_singleton] at member
      rcases member with old | rfl
      · exact describes.later place (by rw [used]; exact old)
      · simp [Layout.published, Layout.unpublishedAt, filled, pending]
    · intro place member
      rw [pending] at member
      cases member
  · refine ⟨pending, fresh, ?_⟩
    rw [Layout.prepared, shape, List.flatMap_cons, filled, List.singleton_append] at prepared
    exact (List.cons_eq_cons.mp prepared).2
  · rw [← arrived]
    simp [Layout.history, EnqueuePoint.entered, filled]
  · exact ⟨rfl, rfl, rfl, List.prefix_append _ _, fun _ _ => ⟨rfl, rfl⟩, fun _ _ => Nat.le_refl _,
      fun _ _ _ => ⟨rfl, rfl⟩⟩

theorem Holds.newBlock {size next : Nat} (power : ∃ exponent, size = 2 ^ (exponent + 1)) (element : α) :
    Block.Holds { (Block.create size next).construct 0 element with tail := 1 } 0 0 [element] := by
  have large : 1 < size := by
    obtain ⟨exponent, rfl⟩ := power
    have := Nat.two_pow_pos exponent
    rw [pow_succ]
    omega
  have published := ((Block.Holds.create power : (Block.create size next).Holds 0 0 []).construct
    (by simpa [Block.create] using large) element).publish
  have one : (0 + 1) % size = 1 := Nat.mod_eq_of_lt large
  simpa only [Block.create, Block.construct, one, List.nil_append] using published

theorem allocate_leads {tailBlock : Nat} (describes : layout.Describes queue)
    (knows : (EnqueuePoint.allocate tailBlock).Knows element layout queue) (arrived : layout.history = before) :
    EnqueueLeads canAlloc element before layout queue (.allocate tailBlock) := by
  obtain ⟨quiet, rfl⟩ := knows
  have fresh : queue.allocated ∉ layout.used ++ layout.free := fun member =>
    Nat.lt_irrefl _ ((describes.allocated _).mpr (.inl member))
  have power : ∃ exponent, queue.largestBlockSize * 2 = 2 ^ (exponent + 1) := by
    obtain ⟨exponent, largest⟩ := describes.largest
    exact ⟨exponent + 1, by rw [largest, ← pow_succ]⟩
  have apart : ∀ place ∈ layout.used ++ layout.free, place ≠ queue.allocated := fun place member same =>
    fresh (same ▸ member)
  refine ⟨_, _, { layout with fresh := some queue.allocated },
    by rw [ReaderWriterQueue.innerEnqueue, describes.block? describes.tail_mem]; rfl, ?_, ?_, ?_, ?_⟩
  · refine ⟨?_, ?_, ?_, power, ?_, describes.later, describes.pending⟩
    · exact describes.ring.congr fun place member => by
        rw [ReaderWriterQueue.allocateBlock_blocks_of_ne _ (apart place member)]
    · intro new member
      cases member
      exact fresh
    · intro place
      have known := describes.allocated place
      rw [quiet.fresh] at known
      simp only [reduceCtorEq, or_false] at known
      change place < queue.allocated + 1 ↔ _
      rw [Nat.lt_succ_iff_lt_or_eq, known, Option.some.injEq, eq_comm]
    · intro place member
      rw [ReaderWriterQueue.allocateBlock_blocks_of_ne _ (apart place member)]
      exact describes.blocks place member
  · refine ⟨quiet.unpublished, rfl, quiet.prepared, rfl, ?_, ?_⟩
    · rw [ReaderWriterQueue.allocateBlock_blocks_self]
      exact Holds.newBlock power element
    · rw [ReaderWriterQueue.allocateBlock_blocks_self,
        ReaderWriterQueue.allocateBlock_blocks_of_ne _ (apart _ describes.tail_mem)]
      rfl
  · simp only [EnqueuePoint.entered, List.append_nil]
    exact arrived
  · have kept : ∀ place ∈ layout.used, (queue.allocateBlock element (queue.blocks queue.tailBlock).next).blocks place =
        queue.blocks place := fun place member =>
      ReaderWriterQueue.allocateBlock_blocks_of_ne _ (apart place (List.mem_append_left _ member)) _ _
    refine ⟨rfl, rfl, rfl, List.prefix_refl _, ?_, fun _ _ => Nat.le_refl _, ?_⟩
    · intro place member
      rw [kept place member]
      exact ⟨rfl, rfl⟩
    · intro place member _
      exact ⟨kept place member, rfl⟩

theorem link_leads {tailBlock newBlock : Nat} (describes : layout.Describes queue)
    (knows : (EnqueuePoint.link tailBlock newBlock).Knows element layout queue) (arrived : layout.history = before) :
    EnqueueLeads canAlloc element before layout queue (.link tailBlock newBlock) := by
  obtain ⟨pending, fresh, prepared, rfl, holds, next⟩ := knows
  have outside := describes.fresh newBlock fresh
  have apart : ∀ place ∈ layout.used ++ layout.free, place ≠ newBlock := fun place member same =>
    outside (same ▸ member)
  have behind : newBlock ≠ queue.tailBlock := (apart _ describes.tail_mem).symm
  have inside : ∀ place, place ∈ layout.used ++ newBlock :: layout.free ↔
      place ∈ layout.used ++ layout.free ∨ place = newBlock := by
    intro place
    simp only [List.mem_append, List.mem_cons]
    tauto
  refine ⟨_, _, { layout with
      free := newBlock :: layout.free
      fresh := none
      items := Function.update layout.items newBlock [element] },
    by rw [ReaderWriterQueue.innerEnqueue, describes.block? describes.tail_mem]; rfl, ?_, ?_, ?_, ?_⟩
  · refine ⟨?_, ?_, ?_, describes.largest, ?_, ?_, ?_⟩
    · apply describes.ring.insert outside
      · simp [ReaderWriterQueue.put]
      · simp [ReaderWriterQueue.put, Function.update_of_ne behind, next]
      · intro place _ different
        simp [ReaderWriterQueue.put, Function.update_of_ne different]
    · intro new member
      cases member
    · intro place
      have known := describes.allocated place
      rw [fresh] at known
      change place < queue.allocated ↔ _
      rw [known, inside place, Option.some.injEq, eq_comm]
      simp
    · intro place member
      rcases (inside place).mp member with old | rfl
      · have before := describes.blocks place old
        have items : Function.update layout.items newBlock [element] place = layout.items place :=
          Function.update_of_ne (apart place old) _ _
        rw [← items] at before
        by_cases same : place = queue.tailBlock
        · subst same
          rw [ReaderWriterQueue.put_blocks_self]
          exact before.relink _
        · rw [ReaderWriterQueue.put_blocks_of_ne _ same]
          exact before
      · have unreleased : place ≠ queue.frontBlock := (apart _ describes.front_mem).symm
        have zero : layout.releasedAt queue place = 0 := if_neg unreleased
        have none : layout.unpublishedAt place = 0 := by simp [Layout.unpublishedAt, pending]
        have items : Function.update layout.items place [element] place = [element] := Function.update_self _ _ _
        have kept : (queue.blocks place).Holds (layout.releasedAt queue place) (layout.unpublishedAt place)
            (Function.update layout.items place [element] place) := by
          rw [zero, none, items]
          exact holds
        rw [ReaderWriterQueue.put_blocks_of_ne _ behind]
        exact kept
    · intro place member
      have old := apart place (List.mem_append_left _ (List.mem_of_mem_tail member))
      have before := describes.later place member
      simpa [Layout.published, Layout.unpublishedAt, Function.update_of_ne old] using before
    · intro place member
      rw [pending] at member
      cases member
  · refine ⟨pending, rfl, ?_, rfl, Function.update_self _ _ _⟩
    rw [Layout.prepared] at prepared
    have absent : newBlock ∉ layout.free := fun member => outside (List.mem_append_right _ member)
    simp only [Layout.prepared, List.flatMap_cons, Function.update_self, Layout.flatMap_update_of_notMem absent,
      prepared, List.append_nil]
  · have absent : newBlock ∉ layout.used := fun member => outside (List.mem_append_left _ member)
    rw [← arrived]
    simp only [Layout.history, Layout.flatMap_update_of_notMem absent, EnqueuePoint.entered, List.append_nil]
  · refine ⟨rfl, rfl, rfl, List.prefix_refl _, ?_, ?_, ?_⟩
    · intro place _
      by_cases same : place = queue.tailBlock
      · simp [ReaderWriterQueue.put, same]
      · simp [ReaderWriterQueue.put, Function.update_of_ne same]
    · intro place member
      have old := apart place (List.mem_append_left _ member)
      simp [Layout.published, Layout.unpublishedAt, Function.update_of_ne old]
    · intro place member different
      have old := apart place (List.mem_append_left _ member)
      simp [ReaderWriterQueue.put, Function.update_of_ne different, Function.update_of_ne old]

theorem loadFront_leads {tailBlock : Nat} (describes : layout.Describes queue)
    (knows : (EnqueuePoint.loadFront tailBlock).Knows element layout queue) (arrived : layout.history = before ++ []) :
    EnqueueLeads canAlloc element before layout queue (.loadFront tailBlock) := by
  obtain ⟨quiet, rfl⟩ := knows
  have holds := describes.blocks _ describes.tail_mem
  have taken : queue.innerEnqueue canAlloc element (.loadFront queue.tailBlock) =
      some (queue, .loadTail queue.tailBlock (queue.blocks queue.tailBlock).front) := by
    rw [ReaderWriterQueue.innerEnqueue, describes.block? describes.tail_mem]
    rfl
  refine .load describes arrived taken ⟨quiet, rfl, 0, ?_, ?_, holds.front⟩ rfl
  · rw [Nat.add_zero, Nat.mod_eq_of_lt holds.front]
  · rw [Nat.zero_add]
    exact holds.room

/-- A slot that is free in view of an older front is free. -/
theorem Behind.room {blockFront : Nat} (describes : layout.Describes queue) (quiet : layout.Quiet)
    (behind : EnqueuePoint.Behind layout queue queue.tailBlock blockFront)
    (apart : ((queue.blocks queue.tailBlock).tail + 1) % (queue.blocks queue.tailBlock).size ≠ blockFront) :
    layout.occupied queue queue.tailBlock + 1 < (queue.blocks queue.tailBlock).size := by
  obtain ⟨count, moved, room, inside⟩ := behind
  have holds := describes.blocks _ describes.tail_mem
  have tail := holds.tail
  have none : layout.unpublishedAt queue.tailBlock = 0 := by simp [Layout.unpublishedAt, quiet.unpublished]
  rw [none, Nat.sub_zero, Nat.add_assoc, moved, Nat.mod_add_mod] at tail
  change _ = (blockFront + count + layout.occupied queue queue.tailBlock) % _ at tail
  by_contra full
  have around : blockFront + count + layout.occupied queue queue.tailBlock + 1 =
      blockFront + (queue.blocks queue.tailBlock).size := by omega
  rw [tail, Nat.mod_add_mod, around, Nat.add_mod_right, Nat.mod_eq_of_lt inside] at apart
  exact apart rfl

theorem loadTail_leads {tailBlock blockFront : Nat} (describes : layout.Describes queue)
    (knows : (EnqueuePoint.loadTail tailBlock blockFront).Knows element layout queue)
    (arrived : layout.history = before ++ []) :
    EnqueueLeads canAlloc element before layout queue (.loadTail tailBlock blockFront) := by
  obtain ⟨quiet, rfl, behind⟩ := knows
  have holds := describes.blocks _ describes.tail_mem
  by_cases full : ((queue.blocks queue.tailBlock).tail + 1) % (queue.blocks queue.tailBlock).size = blockFront
  · have taken : queue.innerEnqueue canAlloc element (.loadTail queue.tailBlock blockFront) =
        some (queue, .loadNext queue.tailBlock) := by
      simp [ReaderWriterQueue.innerEnqueue, describes.block? describes.tail_mem, holds.mask, full]
    exact .load describes arrived taken ⟨quiet, rfl⟩ rfl
  · have taken : queue.innerEnqueue canAlloc element (.loadTail queue.tailBlock blockFront) =
        some (queue, .construct queue.tailBlock (queue.blocks queue.tailBlock).tail
          (((queue.blocks queue.tailBlock).tail + 1) % (queue.blocks queue.tailBlock).size)) := by
      simp [ReaderWriterQueue.innerEnqueue, describes.block? describes.tail_mem, holds.mask, full]
    exact .load describes arrived taken ⟨quiet, rfl, rfl, rfl, Behind.room describes quiet behind full⟩ rfl

theorem loadFrontBlock_leads {tailBlock next : Nat} (describes : layout.Describes queue)
    (knows : (EnqueuePoint.loadFrontBlock tailBlock next).Knows element layout queue)
    (arrived : layout.history = before ++ []) :
    EnqueueLeads canAlloc element before layout queue (.loadFrontBlock tailBlock next) := by
  obtain ⟨quiet, rfl, rfl⟩ := knows
  by_cases around : (queue.blocks queue.tailBlock).next = queue.frontBlock
  · cases canAlloc with
    | true =>
        have taken : queue.innerEnqueue true element (.loadFrontBlock queue.tailBlock (queue.blocks queue.tailBlock).next) =
            some (queue, .allocate queue.tailBlock) := by simp [ReaderWriterQueue.innerEnqueue, around]
        exact .load describes arrived taken ⟨quiet, rfl⟩ rfl
    | false =>
        have taken : queue.innerEnqueue false element (.loadFrontBlock queue.tailBlock (queue.blocks queue.tailBlock).next) =
            some (queue, .returned false) := by simp [ReaderWriterQueue.innerEnqueue, around]
        exact .load describes arrived taken quiet rfl
  · obtain ⟨rest, shape⟩ := describes.ring.free_of_next_ne around
    have taken : queue.innerEnqueue canAlloc element (.loadFrontBlock queue.tailBlock (queue.blocks queue.tailBlock).next) =
        some (queue, .reloadNext queue.tailBlock) := by simp [ReaderWriterQueue.innerEnqueue, around]
    exact .load describes arrived taken ⟨quiet, rfl, by rw [EnqueuePoint.Ahead, shape]; rfl⟩ rfl

theorem Quiet.free_empty (quiet : layout.Quiet) {block : Nat} (member : block ∈ layout.free) :
    layout.items block = [] :=
  List.flatMap_eq_nil_iff.mp quiet.prepared block member

theorem loadNextTail_leads {tailBlockNext nextBlockFront : Nat} (describes : layout.Describes queue)
    (knows : (EnqueuePoint.loadNextTail tailBlockNext nextBlockFront).Knows element layout queue)
    (arrived : layout.history = before ++ []) :
    EnqueueLeads canAlloc element before layout queue (.loadNextTail tailBlockNext nextBlockFront) := by
  obtain ⟨quiet, ahead, rfl⟩ := knows
  have member : tailBlockNext ∈ layout.used ++ layout.free := List.mem_append_right _ (Ahead.mem ahead)
  have zero : layout.releasedAt queue tailBlockNext = 0 := if_neg (describes.free_ne_front (Ahead.mem ahead))
  have holds := describes.blocks _ member
  rw [zero, Quiet.free_empty quiet (Ahead.mem ahead)] at holds
  have empty : (queue.blocks tailBlockNext).front = (queue.blocks tailBlockNext).tail :=
    holds.front_eq_tail_iff.mpr (by simp)
  have taken : queue.innerEnqueue canAlloc element
      (.loadNextTail tailBlockNext (queue.blocks tailBlockNext).front) =
        some (queue, .constructNext tailBlockNext (queue.blocks tailBlockNext).tail) := by
    simp [ReaderWriterQueue.innerEnqueue, describes.block? member, empty]
  exact .load describes arrived taken ⟨quiet, ahead, rfl⟩ rfl

/-- Every step of `inner_enqueue` is defined and leads to a point of which the same
is true. -/
theorem enqueue_leads {point : EnqueuePoint} (describes : layout.Describes queue)
    (knows : point.Knows element layout queue) (arrived : layout.history = before ++ point.entered element)
    (busy : ∀ result, point ≠ .returned result) : EnqueueLeads canAlloc element before layout queue point := by
  cases point with
  | loadTailBlock => exact .load describes arrived rfl ⟨knows, rfl⟩ rfl
  | loadFront tailBlock => exact loadFront_leads describes knows arrived
  | loadTail tailBlock blockFront => exact loadTail_leads describes knows arrived
  | construct tailBlock blockTail nextBlockTail =>
      exact construct_leads describes knows (arrived.trans (List.append_nil _))
  | storeTail tailBlock nextBlockTail => exact storeTail_leads describes knows arrived
  | loadNext tailBlock =>
      obtain ⟨quiet, rfl⟩ := knows
      have taken : queue.innerEnqueue canAlloc element (.loadNext queue.tailBlock) =
          some (queue, .loadFrontBlock queue.tailBlock (queue.blocks queue.tailBlock).next) := by
        rw [ReaderWriterQueue.innerEnqueue, describes.block? describes.tail_mem]
        rfl
      exact .load describes arrived taken ⟨quiet, rfl, rfl⟩ rfl
  | loadFrontBlock tailBlock next => exact loadFrontBlock_leads describes knows arrived
  | reloadNext tailBlock =>
      obtain ⟨quiet, rfl, ahead⟩ := knows
      have taken : queue.innerEnqueue canAlloc element (.reloadNext queue.tailBlock) =
          some (queue, .loadNextFront (queue.blocks queue.tailBlock).next) := by
        rw [ReaderWriterQueue.innerEnqueue, describes.block? describes.tail_mem]
        rfl
      exact .load describes arrived taken ⟨quiet, ahead⟩ rfl
  | loadNextFront tailBlockNext =>
      obtain ⟨quiet, ahead⟩ := knows
      have member : tailBlockNext ∈ layout.used ++ layout.free := List.mem_append_right _ (Ahead.mem ahead)
      have taken : queue.innerEnqueue canAlloc element (.loadNextFront tailBlockNext) =
          some (queue, .loadNextTail tailBlockNext (queue.blocks tailBlockNext).front) := by
        rw [ReaderWriterQueue.innerEnqueue, describes.block? member]
        rfl
      exact .load describes arrived taken ⟨quiet, ahead, rfl⟩ rfl
  | loadNextTail tailBlockNext nextBlockFront => exact loadNextTail_leads describes knows arrived
  | constructNext tailBlockNext nextBlockTail =>
      exact constructNext_leads describes knows (arrived.trans (List.append_nil _))
  | storeNextTail tailBlockNext nextBlockTail =>
      exact storeNextTail_leads describes knows (arrived.trans (List.append_nil _))
  | allocate tailBlock => exact allocate_leads describes knows (arrived.trans (List.append_nil _))
  | link tailBlock newBlock => exact link_leads describes knows (arrived.trans (List.append_nil _))
  | storeTailBlock block => exact storeTailBlock_leads describes knows (arrived.trans (List.append_nil _))
  | returned result => exact absurd rfl (busy result)

end Steps

section Interference

variable {element : α} {layout layout' : Layout α} {queue queue' : ReaderWriterQueue α}

theorem Quiet.stable (step : Layout.ConsumerStep layout queue layout' queue') (quiet : layout.Quiet) : layout'.Quiet :=
  ⟨step.unpublished.trans quiet.unpublished, step.fresh.trans quiet.fresh, step.prepared.trans quiet.prepared⟩

theorem Ahead.stable {block : Nat} (step : Layout.ConsumerStep layout queue layout' queue')
    (ahead : EnqueuePoint.Ahead layout block) : EnqueuePoint.Ahead layout' block := by
  obtain ⟨rest, shape⟩ := Ahead.shape ahead
  obtain ⟨more, longer⟩ := step.free
  rw [EnqueuePoint.Ahead, ← longer, shape]
  rfl

theorem Behind.stable {front : Nat} (step : Layout.ConsumerStep layout queue layout' queue')
    (behind : EnqueuePoint.Behind layout queue queue.tailBlock front) :
    EnqueuePoint.Behind layout' queue' queue.tailBlock front := by
  obtain ⟨count, moved, room, inside⟩ := behind
  obtain ⟨further, movedOn, fewer⟩ := step.emptied
  refine ⟨count + further, ?_, ?_, ?_⟩
  · rw [movedOn, (step.blocks _).2.2, moved, Nat.mod_add_mod, Nat.add_assoc]
  · rw [(step.blocks _).2.2]
    omega
  · rw [(step.blocks _).2.2]
    exact inside

/-- No step of the consumer makes untrue what a call of `inner_enqueue` knows. -/
theorem EnqueuePoint.stable {point : EnqueuePoint} (describes : layout.Describes queue)
    (step : Layout.ConsumerStep layout queue layout' queue') (knows : point.Knows element layout queue) :
    point.Knows element layout' queue' := by
  have blocks := step.blocks
  cases point with
  | loadTailBlock | returned => exact Quiet.stable step knows
  | loadFront | loadNext | allocate =>
      obtain ⟨quiet, rfl⟩ := knows
      exact ⟨Quiet.stable step quiet, step.tailBlock.symm⟩
  | loadTail =>
      obtain ⟨quiet, rfl, behind⟩ := knows
      exact ⟨Quiet.stable step quiet, step.tailBlock.symm, Behind.stable step behind⟩
  | construct =>
      obtain ⟨quiet, rfl, rfl, rfl, room⟩ := knows
      obtain ⟨count, _, fewer⟩ := step.emptied
      refine ⟨Quiet.stable step quiet, step.tailBlock.symm, (blocks _).1.symm, by rw [(blocks _).2.2], ?_⟩
      rw [(blocks _).2.2]
      omega
  | storeTail =>
      obtain ⟨pending, fresh, prepared, rfl, rfl⟩ := knows
      exact ⟨step.unpublished.trans pending, step.fresh.trans fresh, step.prepared.trans prepared,
        step.tailBlock.symm, by rw [(blocks _).2.2, (blocks _).1]⟩
  | loadFrontBlock =>
      obtain ⟨quiet, rfl, rfl⟩ := knows
      exact ⟨Quiet.stable step quiet, step.tailBlock.symm, (blocks _).2.1.symm⟩
  | reloadNext =>
      obtain ⟨quiet, rfl, ahead⟩ := knows
      exact ⟨Quiet.stable step quiet, step.tailBlock.symm, by rw [(blocks _).2.1]; exact Ahead.stable step ahead⟩
  | loadNextFront =>
      obtain ⟨quiet, ahead⟩ := knows
      exact ⟨Quiet.stable step quiet, Ahead.stable step ahead⟩
  | loadNextTail =>
      obtain ⟨quiet, ahead, rfl⟩ := knows
      have untouched := step.untouched _ (describes.free_notMem_used (Ahead.mem ahead))
      exact ⟨Quiet.stable step quiet, Ahead.stable step ahead, by rw [untouched.1]⟩
  | constructNext =>
      obtain ⟨quiet, ahead, rfl⟩ := knows
      exact ⟨Quiet.stable step quiet, Ahead.stable step ahead, (blocks _).1.symm⟩
  | storeNextTail =>
      obtain ⟨pending, fresh, prepared, ahead, filled, rfl⟩ := knows
      have untouched := step.untouched _ (describes.free_notMem_used (Ahead.mem ahead))
      exact ⟨step.unpublished.trans pending, step.fresh.trans fresh, step.prepared.trans prepared,
        Ahead.stable step ahead, untouched.2.trans filled, (blocks _).1.symm⟩
  | link =>
      obtain ⟨pending, fresh, prepared, rfl, holds, next⟩ := knows
      have outside := describes.fresh _ fresh
      have untouched := step.untouched _ fun member => outside (List.mem_append_left _ member)
      refine ⟨step.unpublished.trans pending, step.fresh.trans fresh, step.prepared.trans prepared,
        step.tailBlock.symm, ?_, ?_⟩
      · rw [untouched.1]
        exact holds
      · rw [(blocks _).2.1, (blocks _).2.1]
        exact next
  | storeTailBlock =>
      obtain ⟨pending, fresh, prepared, ahead, filled⟩ := knows
      have untouched := step.untouched _ (describes.free_notMem_used (Ahead.mem ahead))
      exact ⟨step.unpublished.trans pending, step.fresh.trans fresh, step.prepared.trans prepared,
        Ahead.stable step ahead, untouched.2.trans filled⟩

end Interference

namespace Producer

/-- Whether the producer may make a move. -/
def Able (producer : Producer α) : ProducerMove α → Prop
  | .enqueue _ | .tryEnqueue _ => producer.call = none
  | .proceed => producer.call ≠ none

def Knows (layout : Layout α) (queue : ReaderWriterQueue α) (producer : Producer α) : Prop :=
  match producer.call with
  | none => layout.Quiet ∧ layout.history = producer.enqueued
  | some (element, _, point) => point.Knows element layout queue ∧ (∀ result, point ≠ .returned result) ∧
      layout.history = producer.enqueued ++ point.entered element

theorem arrive_knows {producer : Producer α} {layout : Layout α} {queue : ReaderWriterQueue α} {element : α}
    {canAlloc : Bool} {point : EnqueuePoint} (knows : point.Knows element layout queue)
    (arrived : layout.history = producer.enqueued ++ point.entered element) :
    (producer.arrive element canAlloc point).Knows layout queue := by
  cases point with
  | returned result =>
      cases result with
      | true => exact ⟨knows, arrived⟩
      | false => exact ⟨knows, arrived.trans (List.append_nil _)⟩
  | _ => exact ⟨knows, by simp, arrived⟩

theorem begin_knows {producer : Producer α} {layout : Layout α} {queue : ReaderWriterQueue α} {element : α}
    {canAlloc : Bool} (knows : producer.Knows layout queue) (able : producer.call = none) :
    ∃ next, producer.begin element canAlloc = some next ∧ next.Knows layout queue := by
  rw [Knows, able] at knows
  refine ⟨⟨some (element, canAlloc, .loadTailBlock), producer.enqueued⟩, by rw [begin, able]; rfl, ?_⟩
  exact ⟨knows.1, by simp, knows.2.trans (List.append_nil _).symm⟩

theorem proceeds : Proceeds step Able Layout.Describes (Knows (α := α)) Layout.ProducerStep := by
  intro layout queue producer move describes knows able
  cases move with
  | enqueue element | tryEnqueue element =>
      obtain ⟨next, begun, knowsNext⟩ := begin_knows knows able
      exact ⟨queue, next, layout, by rw [step, begun]; rfl, describes, knowsNext, .refl layout queue⟩
  | proceed =>
      obtain ⟨⟨element, canAlloc, point⟩, calling⟩ := Option.ne_none_iff_exists'.mp able
      rw [Knows, calling] at knows
      obtain ⟨knows, busy, arrived⟩ := knows
      obtain ⟨queue', point', layout', taken, describes', knows', arrived', promise⟩ :=
        enqueue_leads describes knows arrived busy
      exact ⟨queue', producer.arrive element canAlloc point', layout',
        by rw [step, calling, Option.bind_some, taken]; rfl, describes', arrive_knows knows' arrived', promise⟩

theorem stable : Stable Layout.Describes (Knows (α := α)) Layout.ConsumerStep := by
  intro layout layout' queue queue' producer describes _ rely knows
  rw [Knows] at knows ⊢
  split at knows
  · exact ⟨Quiet.stable rely knows.1, rely.history.trans knows.2⟩
  · exact ⟨EnqueuePoint.stable describes rely knows.1, knows.2.1, rely.history.trans knows.2.2⟩

theorem able_of_step {queue : ReaderWriterQueue α} {producer : Producer α} {move : ProducerMove α}
    (taken : (step queue producer move).isSome) : producer.Able move := by
  cases move with
  | enqueue element | tryEnqueue element =>
      by_contra busy
      simp [step, begin, Able] at taken busy
      exact busy taken
  | proceed =>
      intro idle
      simp [step, idle] at taken

end Producer

end Webapp.Queues

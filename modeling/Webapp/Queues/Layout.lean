import Webapp.Queues.ReaderWriter

namespace Webapp.Queues

open Webapp.Data

/-! What the memory of a `ReaderWriterQueue` stands for: the order of its blocks
and the items in each, between the steps of both threads.
-/

/-- The blocks in use from the front block to the tail block, the free ones behind
them, and a new one that is not linked yet; the items of each block; how many
slots of the front block the consumer has emptied without moving the front, and
the block, if any, in which the producer has constructed an item without moving
the tail; and the items that were taken. -/
structure Layout (α : Type) where
  used : List Nat
  free : List Nat
  fresh : Option Nat
  items : Nat → List α
  released : Nat
  unpublished : Option Nat
  gone : List α

namespace Layout

variable {α : Type}

def releasedAt (layout : Layout α) (queue : ReaderWriterQueue α) (block : Nat) : Nat :=
  if block = queue.frontBlock then layout.released else 0

def unpublishedAt (layout : Layout α) (block : Nat) : Nat := if layout.unpublished = some block then 1 else 0

/-- How many items of a block the consumer can see. -/
def published (layout : Layout α) (block : Nat) : Nat := (layout.items block).length - layout.unpublishedAt block

/-- How many slots of a block the producer cannot use. -/
def occupied (layout : Layout α) (queue : ReaderWriterQueue α) (block : Nat) : Nat :=
  layout.releasedAt queue block + (layout.items block).length

/-- All items that ever came into a block in use, in the order of their arrival. -/
def history (layout : Layout α) : List α := layout.gone ++ layout.used.flatMap layout.items

/-- The items in free blocks. -/
def prepared (layout : Layout α) : List α := layout.free.flatMap layout.items

def visible (layout : Layout α) : List α :=
  layout.used.flatMap fun block => (layout.items block).take (layout.published block)

structure Describes (layout : Layout α) (queue : ReaderWriterQueue α) : Prop where
  ring : Ring (fun block => (queue.blocks block).next) queue.frontBlock queue.tailBlock layout.used layout.free
  fresh : ∀ block ∈ layout.fresh, block ∉ layout.used ++ layout.free
  allocated : ∀ block, block < queue.allocated ↔ block ∈ layout.used ++ layout.free ∨ layout.fresh = some block
  largest : ∃ exponent, queue.largestBlockSize = 2 ^ (exponent + 1)
  blocks : ∀ block ∈ layout.used ++ layout.free,
    (queue.blocks block).Holds (layout.releasedAt queue block) (layout.unpublishedAt block) (layout.items block)
  later : ∀ block ∈ layout.used.tail, 0 < layout.published block
  pending : ∀ block ∈ layout.unpublished, block ∈ layout.used → block = queue.tailBlock

section

variable {layout : Layout α} {queue : ReaderWriterQueue α} {block : Nat}

theorem Describes.front_mem (describes : layout.Describes queue) :
    queue.frontBlock ∈ layout.used ++ layout.free :=
  List.mem_append_left _ describes.ring.front_mem

theorem Describes.tail_mem (describes : layout.Describes queue) :
    queue.tailBlock ∈ layout.used ++ layout.free :=
  List.mem_append_left _ describes.ring.tail_mem

theorem Describes.block? (describes : layout.Describes queue) (member : block ∈ layout.used ++ layout.free) :
    queue.block? block = some (queue.blocks block) :=
  if_pos ((describes.allocated block).mpr (.inl member))

theorem Describes.front_shape (describes : layout.Describes queue) : ∃ rest, layout.used = queue.frontBlock :: rest := by
  have first := describes.ring.first
  cases shape : layout.used with
  | nil =>
      rw [shape] at first
      cases first
  | cons head rest =>
      rw [shape] at first
      cases first
      exact ⟨rest, rfl⟩

theorem Describes.front_notMem_tail (describes : layout.Describes queue) :
    queue.frontBlock ∉ layout.used.tail := by
  obtain ⟨rest, shape⟩ := describes.front_shape
  have nodup := (List.nodup_append.mp describes.ring.nodup).1
  rw [shape] at nodup ⊢
  exact (List.nodup_cons.mp nodup).1

theorem Describes.free_notMem_used (describes : layout.Describes queue) (member : block ∈ layout.free) :
    block ∉ layout.used := fun inUse =>
  (List.nodup_append.mp describes.ring.nodup).2.2 block inUse block member rfl

theorem Describes.free_ne_front (describes : layout.Describes queue) (member : block ∈ layout.free) :
    block ≠ queue.frontBlock := fun same =>
  describes.free_notMem_used member (same ▸ describes.ring.front_mem)

theorem Describes.unpublishedAt_of_ne (describes : layout.Describes queue) (member : block ∈ layout.used)
    (apart : block ≠ queue.tailBlock) : layout.unpublishedAt block = 0 :=
  if_neg fun pending => apart (describes.pending block pending member)

theorem flatMap_update_of_notMem {places : List Nat} {items : Nat → List α} {place : Nat} (absent : place ∉ places)
    (values : List α) : places.flatMap (Function.update items place values) = places.flatMap items := by
  apply List.flatMap_congr
  intro other member
  have apart : other ≠ place := fun same => absent (same ▸ member)
  rw [Function.update_of_ne apart]

end

/-- One block and its items change. -/
theorem Describes.modify {layout : Layout α} {queue : ReaderWriterQueue α} {number released : Nat}
    {unpublished : Option Nat} {gone : List α} {block : Block α} {items : List α}
    (describes : layout.Describes queue)
    (next : block.next = (queue.blocks number).next)
    (holds : block.Holds (if number = queue.frontBlock then released else 0)
      (if unpublished = some number then 1 else 0) items)
    (emptied : number ≠ queue.frontBlock → released = layout.released)
    (sameUnpublished : ∀ other ∈ layout.used ++ layout.free, other ≠ number →
      (unpublished = some other ↔ layout.unpublished = some other))
    (later : number ∈ layout.used.tail → 0 < items.length - if unpublished = some number then 1 else 0)
    (pending : ∀ other ∈ unpublished, other ∈ layout.used → other = queue.tailBlock) :
    Describes { layout with items := Function.update layout.items number items, released, unpublished, gone }
      (queue.put number block) where
  ring := by
    refine describes.ring.congr fun place member => ?_
    simp only [ReaderWriterQueue.put]
    by_cases same : place = number
    · rw [same, Function.update_self, next]
    · rw [Function.update_of_ne same]
  fresh := describes.fresh
  allocated := describes.allocated
  largest := describes.largest
  blocks := by
    intro place member
    change (Function.update queue.blocks number block place).Holds (if place = queue.frontBlock then released else 0)
      (if unpublished = some place then 1 else 0) (Function.update layout.items number items place)
    by_cases same : place = number
    · subst same
      rw [Function.update_self, Function.update_self]
      exact holds
    · rw [Function.update_of_ne same, Function.update_of_ne same]
      have before := describes.blocks place member
      simp only [releasedAt, unpublishedAt] at before
      have sameReleased : (if place = queue.frontBlock then released else 0) =
          if place = queue.frontBlock then layout.released else 0 := by
        split
        · rename_i front
          exact emptied fun equal => same (front.trans equal.symm)
        · rfl
      rw [sameReleased, if_congr (sameUnpublished place member same) rfl rfl]
      exact before
  later := by
    intro place member
    simp only [published, unpublishedAt]
    by_cases same : place = number
    · subst same
      rw [Function.update_self]
      exact later member
    · rw [Function.update_of_ne same]
      have before := describes.later place member
      simp only [published, unpublishedAt] at before
      rwa [if_congr (sameUnpublished place (List.mem_append_left _ (List.mem_of_mem_tail member)) same) rfl rfl]
  pending := pending

/-- What the producer can rely on when the consumer has taken a step. -/
structure ConsumerStep (layout : Layout α) (queue : ReaderWriterQueue α) (layout' : Layout α)
    (queue' : ReaderWriterQueue α) : Prop where
  tailBlock : queue'.tailBlock = queue.tailBlock
  blocks : ∀ block, (queue'.blocks block).tail = (queue.blocks block).tail ∧
    (queue'.blocks block).next = (queue.blocks block).next ∧ (queue'.blocks block).size = (queue.blocks block).size
  history : layout'.history = layout.history
  prepared : layout'.prepared = layout.prepared
  fresh : layout'.fresh = layout.fresh
  unpublished : layout'.unpublished = layout.unpublished
  free : layout.free <+: layout'.free
  untouched : ∀ block ∉ layout.used, queue'.blocks block = queue.blocks block ∧ layout'.items block = layout.items block
  emptied : ∃ count, (queue'.blocks queue.tailBlock).front =
      ((queue.blocks queue.tailBlock).front + count) % (queue.blocks queue.tailBlock).size ∧
    count + layout'.occupied queue' queue.tailBlock = layout.occupied queue queue.tailBlock

/-- What the consumer can rely on when the producer has taken a step. -/
structure ProducerStep (layout : Layout α) (queue : ReaderWriterQueue α) (layout' : Layout α)
    (queue' : ReaderWriterQueue α) : Prop where
  frontBlock : queue'.frontBlock = queue.frontBlock
  released : layout'.released = layout.released
  gone : layout'.gone = layout.gone
  used : layout.used <+: layout'.used
  blocks : ∀ block ∈ layout.used, (queue'.blocks block).front = (queue.blocks block).front ∧
    (queue'.blocks block).size = (queue.blocks block).size
  published : ∀ block ∈ layout.used, layout.published block ≤ layout'.published block
  settled : ∀ block ∈ layout.used, block ≠ queue.tailBlock → queue'.blocks block = queue.blocks block ∧
    layout'.items block = layout.items block

end Layout

end Webapp.Queues

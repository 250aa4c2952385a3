import Webapp.Queues.Blocks
import Webapp.Data.Interference

namespace Webapp.Queues

open Webapp.Data

/-! `ReaderWriterQueue`: a circular list of blocks between one producer and one
consumer.  Every load and store of a shared variable is a step of its own, so
that the two threads interleave anywhere between them; the fences of the source
have no step.  A step has no result where the source would fail an assertion,
follow a pointer to no block, or use a slot outside its block, construct over a
constructed one or read a raw one.
-/

/-- Blocks are numbered in the order of their allocation. -/
structure ReaderWriterQueue (α : Type) where
  frontBlock : Nat
  tailBlock : Nat
  largestBlockSize : Nat
  allocated : Nat
  blocks : Nat → Block α

/-- Where `inner_enqueue` is, with its local variables. -/
inductive EnqueuePoint where
  | loadTailBlock
  | loadFront (tailBlock : Nat)
  | loadTail (tailBlock blockFront : Nat)
  | construct (tailBlock blockTail nextBlockTail : Nat)
  | storeTail (tailBlock nextBlockTail : Nat)
  | loadNext (tailBlock : Nat)
  | loadFrontBlock (tailBlock next : Nat)
  | reloadNext (tailBlock : Nat)
  | loadNextFront (tailBlockNext : Nat)
  | loadNextTail (tailBlockNext nextBlockFront : Nat)
  | constructNext (tailBlockNext nextBlockTail : Nat)
  | storeNextTail (tailBlockNext nextBlockTail : Nat)
  | allocate (tailBlock : Nat)
  | link (tailBlock newBlock : Nat)
  | storeTailBlock (block : Nat)
  | returned (result : Bool)
deriving DecidableEq

/-- Where `try_dequeue` is, with its local variables. -/
inductive DequeuePoint (α : Type) where
  | loadTailBlock
  | loadFrontBlock (tailBlockAtStart : Nat)
  | loadTail (tailBlockAtStart frontBlock : Nat)
  | loadFront (tailBlockAtStart frontBlock blockTail : Nat)
  | take (frontBlock blockFront : Nat)
  | storeFront (frontBlock blockFront : Nat) (result : α)
  | loadNext (frontBlock : Nat)
  | loadNextFront (nextBlock : Nat)
  | loadNextTail (nextBlock nextBlockFront : Nat)
  | storeFrontBlock (nextBlock nextBlockFront : Nat)
  | returned (result : Option α)
deriving DecidableEq

namespace ReaderWriterQueue

variable {α : Type}

def create (maxSize : Nat) : ReaderWriterQueue α :=
  let size := ceilToPow2 (sizeT (maxSize + 1))
  ⟨0, 0, size, 1, fun _ => Block.create size 0⟩

def block? (queue : ReaderWriterQueue α) (number : Nat) : Option (Block α) :=
  if number < queue.allocated then some (queue.blocks number) else none

def put (queue : ReaderWriterQueue α) (number : Nat) (block : Block α) : ReaderWriterQueue α :=
  { queue with blocks := Function.update queue.blocks number block }

@[simp] theorem put_blocks_self (queue : ReaderWriterQueue α) (number : Nat) (block : Block α) :
    (queue.put number block).blocks number = block :=
  Function.update_self _ _ _

@[simp] theorem put_blocks_of_ne (queue : ReaderWriterQueue α) {number other : Nat} (apart : other ≠ number)
    (block : Block α) : (queue.put number block).blocks other = queue.blocks other :=
  Function.update_of_ne apart _ _

/-- Constructs an element in a raw slot. -/
def constructAt (queue : ReaderWriterQueue α) (number index : Nat) (element : α) : Option (ReaderWriterQueue α) :=
  (queue.block? number).bind fun block =>
    if index < block.size ∧ (block.data index).isNone then some (queue.put number (block.construct index element))
    else none

/-- Moves the element out of a slot and destroys it. -/
def takeAt (queue : ReaderWriterQueue α) (number index : Nat) : Option (α × ReaderWriterQueue α) :=
  (queue.block? number).bind fun block =>
    if index < block.size then
      (block.data index).map fun element => (element, queue.put number (block.destroy index))
    else none

/-- A new block of twice the largest size, with one element and the next block
already stored in it. -/
def allocateBlock (queue : ReaderWriterQueue α) (element : α) (next : Nat) : ReaderWriterQueue α :=
  let newBlock := (Block.create (queue.largestBlockSize * 2) next).construct 0 element
  { queue with
    largestBlockSize := queue.largestBlockSize * 2
    allocated := queue.allocated + 1
    blocks := Function.update queue.blocks queue.allocated { newBlock with tail := 1 } }

@[simp] theorem allocateBlock_blocks_self (queue : ReaderWriterQueue α) (element : α) (next : Nat) :
    (queue.allocateBlock element next).blocks queue.allocated =
      { (Block.create (queue.largestBlockSize * 2) next).construct 0 element with tail := 1 } :=
  Function.update_self _ _ _

@[simp] theorem allocateBlock_blocks_of_ne (queue : ReaderWriterQueue α) {other : Nat}
    (apart : other ≠ queue.allocated) (element : α) (next : Nat) :
    (queue.allocateBlock element next).blocks other = queue.blocks other :=
  Function.update_of_ne apart _ _

def innerEnqueue (canAlloc : Bool) (element : α) (queue : ReaderWriterQueue α) :
    EnqueuePoint → Option (ReaderWriterQueue α × EnqueuePoint)
  | .loadTailBlock => some (queue, .loadFront queue.tailBlock)
  | .loadFront tailBlock => (queue.block? tailBlock).map fun block => (queue, .loadTail tailBlock block.front)
  | .loadTail tailBlock blockFront => (queue.block? tailBlock).map fun block =>
      let nextBlockTail := (block.tail + 1) &&& block.sizeMask
      if nextBlockTail ≠ blockFront then (queue, .construct tailBlock block.tail nextBlockTail)
      else (queue, .loadNext tailBlock)
  | .construct tailBlock blockTail nextBlockTail =>
      (queue.constructAt tailBlock blockTail element).map fun queue => (queue, .storeTail tailBlock nextBlockTail)
  | .storeTail tailBlock nextBlockTail => (queue.block? tailBlock).map fun block =>
      (queue.put tailBlock { block with tail := nextBlockTail }, .returned true)
  | .loadNext tailBlock => (queue.block? tailBlock).map fun block => (queue, .loadFrontBlock tailBlock block.next)
  | .loadFrontBlock tailBlock next =>
      if next ≠ queue.frontBlock then some (queue, .reloadNext tailBlock)
      else if canAlloc then some (queue, .allocate tailBlock)
      else some (queue, .returned false)
  | .reloadNext tailBlock => (queue.block? tailBlock).map fun block => (queue, .loadNextFront block.next)
  | .loadNextFront tailBlockNext => (queue.block? tailBlockNext).map fun block =>
      (queue, .loadNextTail tailBlockNext block.front)
  | .loadNextTail tailBlockNext nextBlockFront => (queue.block? tailBlockNext).bind fun block =>
      if nextBlockFront = block.tail then some (queue, .constructNext tailBlockNext block.tail) else none
  | .constructNext tailBlockNext nextBlockTail =>
      (queue.constructAt tailBlockNext nextBlockTail element).map fun queue =>
        (queue, .storeNextTail tailBlockNext nextBlockTail)
  | .storeNextTail tailBlockNext nextBlockTail => (queue.block? tailBlockNext).map fun block =>
      (queue.put tailBlockNext { block with tail := (nextBlockTail + 1) &&& block.sizeMask },
        .storeTailBlock tailBlockNext)
  -- Until it is linked, the new block is known to the producer alone.
  | .allocate tailBlock => (queue.block? tailBlock).map fun block =>
      (queue.allocateBlock element block.next, .link tailBlock queue.allocated)
  | .link tailBlock newBlock => (queue.block? tailBlock).map fun block =>
      (queue.put tailBlock { block with next := newBlock }, .storeTailBlock newBlock)
  | .storeTailBlock block => some ({ queue with tailBlock := block }, .returned true)
  | .returned _ => none

def tryDequeue (queue : ReaderWriterQueue α) : DequeuePoint α → Option (ReaderWriterQueue α × DequeuePoint α)
  | .loadTailBlock => some (queue, .loadFrontBlock queue.tailBlock)
  | .loadFrontBlock tailBlockAtStart => some (queue, .loadTail tailBlockAtStart queue.frontBlock)
  | .loadTail tailBlockAtStart frontBlock => (queue.block? frontBlock).map fun block =>
      (queue, .loadFront tailBlockAtStart frontBlock block.tail)
  | .loadFront tailBlockAtStart frontBlock blockTail => (queue.block? frontBlock).map fun block =>
      if block.front ≠ blockTail then (queue, .take frontBlock block.front)
      else if frontBlock ≠ tailBlockAtStart then (queue, .loadNext frontBlock)
      else (queue, .returned none)
  | .take frontBlock blockFront => (queue.block? frontBlock).bind fun block =>
      (queue.takeAt frontBlock blockFront).map fun taken =>
        (taken.2, .storeFront frontBlock ((blockFront + 1) &&& block.sizeMask) taken.1)
  | .storeFront frontBlock blockFront result => (queue.block? frontBlock).map fun block =>
      (queue.put frontBlock { block with front := blockFront }, .returned (some result))
  | .loadNext frontBlock => (queue.block? frontBlock).map fun block => (queue, .loadNextFront block.next)
  | .loadNextFront nextBlock => (queue.block? nextBlock).map fun block =>
      (queue, .loadNextTail nextBlock block.front)
  | .loadNextTail nextBlock nextBlockFront => (queue.block? nextBlock).bind fun block =>
      if nextBlockFront ≠ block.tail then some (queue, .storeFrontBlock nextBlock nextBlockFront) else none
  | .storeFrontBlock nextBlock nextBlockFront =>
      some ({ queue with frontBlock := nextBlock }, .take nextBlock nextBlockFront)
  | .returned _ => none

/-- The slots in use, from the front block to the tail block. -/
def slotsFrom (queue : ReaderWriterQueue α) : Nat → Nat → List (Option α)
  | 0, _ => []
  | more + 1, number =>
      (queue.blocks number).slots ++
        if number = queue.tailBlock then [] else queue.slotsFrom more (queue.blocks number).next

/-- The elements in the queue. -/
def contents (queue : ReaderWriterQueue α) : List α :=
  (queue.slotsFrom queue.allocated queue.frontBlock).reduceOption

/-- The destructor's inner loop: the elements from an index of a block on.  It has
no result if it comes to a raw slot, or does not come to the tail. -/
def destroySlots (block : Block α) : Nat → Nat → Option (List α)
  | 0, _ => none
  | more + 1, index =>
      if index = block.tail then some []
      else (block.data index).bind fun element =>
        (destroySlots block more ((index + 1) &&& block.sizeMask)).map fun elements => element :: elements

/-- The destructor from a block on: the elements it destroys and the blocks it
deletes.  It has no result if it comes to a block that is deleted already. -/
def destroyFrom (queue : ReaderWriterQueue α) : Nat → List Nat → Nat → Option (List α × List Nat)
  | 0, _, _ => none
  | more + 1, deleted, number =>
      if number ∈ deleted then none
      else (queue.block? number).bind fun block =>
        (destroySlots block block.size block.front).bind fun elements =>
          if block.next = queue.frontBlock then some (elements, deleted ++ [number])
          else (queue.destroyFrom more (deleted ++ [number]) block.next).map fun rest => (elements ++ rest.1, rest.2)

def destroy (queue : ReaderWriterQueue α) : Option (List α × List Nat) :=
  queue.destroyFrom queue.allocated [] queue.frontBlock

end ReaderWriterQueue

/-- The thread that enqueues, and the elements for which its calls returned true. -/
structure Producer (α : Type) where
  call : Option (α × Bool × EnqueuePoint)
  enqueued : List α

/-- The thread that dequeues, and what its calls returned; `none` stands for the
answer false. -/
structure Consumer (α : Type) where
  call : Option (DequeuePoint α)
  returned : List (Option α)

inductive ProducerMove (α : Type) where
  | enqueue (element : α)
  | tryEnqueue (element : α)
  | proceed

inductive ConsumerMove where
  | tryDequeue
  | proceed

namespace Producer

variable {α : Type}

def begin (producer : Producer α) (element : α) (canAlloc : Bool) : Option (Producer α) :=
  if producer.call.isNone then some { producer with call := some (element, canAlloc, .loadTailBlock) } else none

/-- The call goes on at a point, or ends there. -/
def arrive (producer : Producer α) (element : α) (canAlloc : Bool) : EnqueuePoint → Producer α
  | .returned result => ⟨none, if result then producer.enqueued ++ [element] else producer.enqueued⟩
  | point => { producer with call := some (element, canAlloc, point) }

def step (queue : ReaderWriterQueue α) (producer : Producer α) :
    ProducerMove α → Option (ReaderWriterQueue α × Producer α)
  | .enqueue element => (producer.begin element true).map fun producer => (queue, producer)
  | .tryEnqueue element => (producer.begin element false).map fun producer => (queue, producer)
  | .proceed => producer.call.bind fun call =>
      (queue.innerEnqueue call.2.1 call.1 call.2.2).map fun after =>
        (after.1, producer.arrive call.1 call.2.1 after.2)

end Producer

namespace Consumer

variable {α : Type}

def arrive (consumer : Consumer α) : DequeuePoint α → Consumer α
  | .returned result => ⟨none, consumer.returned ++ [result]⟩
  | point => { consumer with call := some point }

def step (queue : ReaderWriterQueue α) (consumer : Consumer α) :
    ConsumerMove → Option (ReaderWriterQueue α × Consumer α)
  | .tryDequeue => if consumer.call.isNone then some (queue, { consumer with call := some .loadTailBlock }) else none
  | .proceed => consumer.call.bind fun point =>
      (queue.tryDequeue point).map fun after => (after.1, consumer.arrive after.2)

end Consumer

end Webapp.Queues

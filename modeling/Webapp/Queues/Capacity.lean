import Webapp.Queues.Fifo

namespace Webapp.Queues

open Webapp.Data

/-! A promise in the header of `ReaderWriterQueue`: no further block is allocated while
the estimate of the constructor is kept to.
-/

variable {α : Type}

/-- There is one block, and its indices tell how many elements came and went. -/
structure OneBlock (size enqueued returned : Nat) (queue : ReaderWriterQueue α) : Prop where
  allocated : queue.allocated = 1
  frontBlock : queue.frontBlock = 0
  tailBlock : queue.tailBlock = 0
  blockSize : (queue.blocks 0).size = size
  front : (queue.blocks 0).front = returned % size
  tail : (queue.blocks 0).tail = enqueued % size

/-- While the first block is the only one, what the producer has loaded of it tells
that there is room. -/
def EnqueuePoint.Fits (maxSize size enqueued returned : Nat) : EnqueuePoint → Prop
  | .loadTailBlock => enqueued < maxSize + returned
  | .loadFront tailBlock => tailBlock = 0 ∧ enqueued < maxSize + returned
  | .loadTail tailBlock blockFront =>
      tailBlock = 0 ∧ ∃ earlier ≤ returned, blockFront = earlier % size ∧ enqueued < maxSize + earlier
  | .construct tailBlock _ nextBlockTail | .storeTail tailBlock nextBlockTail =>
      tailBlock = 0 ∧ nextBlockTail = (enqueued + 1) % size
  | _ => False

def DequeuePoint.Stays (size returned : Nat) : DequeuePoint α → Prop
  | .loadTailBlock => True
  | .loadFrontBlock tailBlockAtStart => tailBlockAtStart = 0
  | .loadTail tailBlockAtStart frontBlock | .loadFront tailBlockAtStart frontBlock _ =>
      tailBlockAtStart = 0 ∧ frontBlock = 0
  | .take frontBlock blockFront => frontBlock = 0 ∧ blockFront = returned % size
  | .storeFront frontBlock blockFront _ => frontBlock = 0 ∧ blockFront = (returned + 1) % size
  | _ => False

theorem mod_ne_of_lt {first second size : Nat} (before : first < second) (near : second < first + size) :
    second % size ≠ first % size := by
  intro same
  have divides := (Nat.modEq_iff_dvd' (Nat.le_of_lt before)).mp same.symm
  have least := Nat.le_of_dvd (by omega) divides
  omega

section Steps

variable {maxSize size enqueued returned : Nat} {queue queue' : ReaderWriterQueue α}

theorem OneBlock.block? (one : OneBlock size enqueued returned queue) :
    queue.block? 0 = some (queue.blocks 0) := by
  rw [ReaderWriterQueue.block?, one.allocated]
  rfl

theorem OneBlock.mask (one : OneBlock size enqueued returned queue) (power : ∃ exponent, size = 2 ^ exponent)
    (index : Nat) : (index % size + 1) &&& (queue.blocks 0).sizeMask = (index + 1) % size := by
  obtain ⟨exponent, rfl⟩ := power
  rw [Block.sizeMask, one.blockSize, Nat.and_two_pow_sub_one_eq_mod, Nat.mod_add_mod]

theorem OneBlock.put (one : OneBlock size enqueued returned queue) {block : Block α} {came went : Nat}
    (sameSize : block.size = (queue.blocks 0).size) (front : block.front = went % size)
    (tail : block.tail = came % size) : OneBlock size came went (queue.put 0 block) where
  allocated := one.allocated
  frontBlock := one.frontBlock
  tailBlock := one.tailBlock
  blockSize := by rw [ReaderWriterQueue.put_blocks_self, sameSize, one.blockSize]
  front := by rw [ReaderWriterQueue.put_blocks_self, front]
  tail := by rw [ReaderWriterQueue.put_blocks_self, tail]

/-- The call goes on in the first block, or has enqueued its element there. -/
theorem innerEnqueue_fits {canAlloc : Bool} {element : α} {point point' : EnqueuePoint}
    (power : ∃ exponent, size = 2 ^ exponent) (large : maxSize < size) (one : OneBlock size enqueued returned queue)
    (behind : returned ≤ enqueued) (fits : point.Fits maxSize size enqueued returned)
    (taken : queue.innerEnqueue canAlloc element point = some (queue', point')) :
    (OneBlock size enqueued returned queue' ∧ point'.Fits maxSize size enqueued returned) ∨
      (OneBlock size (enqueued + 1) returned queue' ∧ point' = .returned true) := by
  cases point with
  | loadTailBlock =>
      cases taken
      exact .inl ⟨one, one.tailBlock, fits⟩
  | loadFront tailBlock =>
      obtain ⟨rfl, room⟩ := fits
      rw [ReaderWriterQueue.innerEnqueue, one.block?] at taken
      cases taken
      exact .inl ⟨one, rfl, returned, Nat.le_refl _, one.front, room⟩
  | loadTail tailBlock blockFront =>
      obtain ⟨rfl, earlier, before, rfl, room⟩ := fits
      have apart : (enqueued + 1) % size ≠ earlier % size := mod_ne_of_lt (by omega) (by omega)
      simp only [ReaderWriterQueue.innerEnqueue, one.block?, Option.map_some, one.tail, one.mask power, ne_eq, apart,
        not_false_iff, if_true, Option.some.injEq] at taken
      cases taken
      exact .inl ⟨one, rfl, rfl⟩
  | construct tailBlock blockTail nextBlockTail =>
      obtain ⟨rfl, rfl⟩ := fits
      simp only [ReaderWriterQueue.innerEnqueue, ReaderWriterQueue.constructAt, one.block?, Option.bind_some] at taken
      split at taken
      · cases taken
        exact .inl ⟨one.put rfl one.front one.tail, rfl, rfl⟩
      · cases taken
  | storeTail tailBlock nextBlockTail =>
      obtain ⟨rfl, rfl⟩ := fits
      rw [ReaderWriterQueue.innerEnqueue, one.block?] at taken
      cases taken
      exact .inr ⟨one.put rfl one.front rfl, rfl⟩
  | _ => exact fits.elim

/-- The call goes on in the first block, or returns: an element, which is then gone
from there, or none. -/
theorem tryDequeue_stays {point point' : DequeuePoint α} (power : ∃ exponent, size = 2 ^ exponent)
    (one : OneBlock size enqueued returned queue) (stays : point.Stays size returned)
    (taken : queue.tryDequeue point = some (queue', point')) :
    (OneBlock size enqueued returned queue' ∧ (point'.Stays size returned ∨ point' = .returned none)) ∨
      (OneBlock size enqueued (returned + 1) queue' ∧ ∃ result, point' = .returned (some result)) := by
  cases point with
  | loadTailBlock =>
      cases taken
      exact .inl ⟨one, .inl one.tailBlock⟩
  | loadFrontBlock tailBlockAtStart =>
      cases taken
      exact .inl ⟨one, .inl ⟨stays, one.frontBlock⟩⟩
  | loadTail tailBlockAtStart frontBlock =>
      obtain ⟨rfl, rfl⟩ := stays
      rw [ReaderWriterQueue.tryDequeue, one.block?] at taken
      cases taken
      exact .inl ⟨one, .inl ⟨rfl, rfl⟩⟩
  | loadFront tailBlockAtStart frontBlock blockTail =>
      obtain ⟨rfl, rfl⟩ := stays
      simp only [ReaderWriterQueue.tryDequeue, one.block?, Option.map_some, ne_eq, not_true, if_false,
        Option.some.injEq] at taken
      split at taken
      · cases taken
        exact .inl ⟨one, .inl ⟨rfl, one.front⟩⟩
      · cases taken
        exact .inl ⟨one, .inr rfl⟩
  | take frontBlock blockFront =>
      obtain ⟨rfl, rfl⟩ := stays
      simp only [ReaderWriterQueue.tryDequeue, ReaderWriterQueue.takeAt, one.block?, Option.bind_some,
        one.mask power] at taken
      split at taken
      · obtain ⟨after, found, same⟩ := Option.map_eq_some_iff.mp taken
        obtain ⟨element, _, rfl⟩ := Option.map_eq_some_iff.mp found
        cases same
        exact .inl ⟨one.put rfl one.front one.tail, .inl ⟨rfl, rfl⟩⟩
      · cases taken
  | storeFront frontBlock blockFront result =>
      obtain ⟨rfl, rfl⟩ := stays
      rw [ReaderWriterQueue.tryDequeue, one.block?] at taken
      cases taken
      exact .inr ⟨one.put rfl rfl one.tail, result, rfl⟩
  | _ => exact stays.elim

end Steps

namespace Channel

/-- How many elements were returned. -/
def count (channel : Channel α) : Nat := channel.right.returned.reduceOption.length

structure Single (maxSize size : Nat) (channel : Channel α) : Prop where
  sound : channel.Sound
  one : OneBlock size channel.left.enqueued.length channel.count channel.memory
  producer : ∀ call ∈ channel.left.call, call.2.2.Fits maxSize size channel.left.enqueued.length channel.count
  consumer : ∀ point ∈ channel.right.call, point.Stays size channel.count

/-- A call that enqueues begins when fewer than `maxSize` elements are enqueued and
not returned. -/
def Fewer (maxSize : Nat) (channel : Channel α) : ChannelMove α → Prop
  | .inl (.enqueue _) | .inl (.tryEnqueue _) => channel.left.enqueued.length < maxSize + channel.count
  | _ => True

instance Fewer.decidable (maxSize : Nat) (channel : Channel α) :
    (move : ChannelMove α) → Decidable (channel.Fewer maxSize move)
  | .inl (.enqueue _) | .inl (.tryEnqueue _) =>
      inferInstanceAs (Decidable (channel.left.enqueued.length < maxSize + channel.count))
  | .inl .proceed | .inr _ => isTrue trivial

variable {maxSize size : Nat} {channel next : Channel α}

theorem Sound.count_le (sound : channel.Sound) : channel.count ≤ channel.left.enqueued.length := by
  rw [Certain.order sound, count]
  simp only [List.length_append]
  omega

end Channel

theorem EnqueuePoint.Fits.later {maxSize size enqueued returned later : Nat} {point : EnqueuePoint}
    (fits : point.Fits maxSize size enqueued returned) (more : returned ≤ later) :
    point.Fits maxSize size enqueued later := by
  cases point with
  | loadTailBlock => exact Nat.lt_of_lt_of_le fits (by omega)
  | loadFront => exact ⟨fits.1, Nat.lt_of_lt_of_le fits.2 (by omega)⟩
  | loadTail =>
      obtain ⟨here, earlier, before, front, room⟩ := fits
      exact ⟨here, earlier, Nat.le_trans before more, front, room⟩
  | _ => exact fits

namespace Channel

variable {maxSize size : Nat} {channel next : Channel α}

theorem Single.producer_step (power : ∃ exponent, size = 2 ^ exponent) (large : maxSize < size)
    (single : channel.Single maxSize size) {move : ProducerMove α} (fewer : channel.Fewer maxSize (.inl move))
    (taken : channel.step (.inl move) = some next) : next.Single maxSize size := by
  have sound := single.sound.step taken
  obtain ⟨memory, producer, went, rfl⟩ := Threads.step_inl taken
  cases move with
  | enqueue element | tryEnqueue element =>
      obtain ⟨begun, began, same⟩ := Option.map_eq_some_iff.mp went
      rw [Producer.begin] at began
      split at began
      · cases began
        cases same
        refine ⟨sound, single.one, ?_, single.consumer⟩
        intro call member
        cases member
        exact fewer
      · cases began
  | proceed =>
      obtain ⟨call, calling, stepped⟩ := Option.bind_eq_some_iff.mp went
      obtain ⟨⟨queue', point'⟩, ran, same⟩ := Option.map_eq_some_iff.mp stepped
      cases same
      rcases innerEnqueue_fits power large single.one single.sound.count_le (single.producer call calling) ran with
        stays | ends
      · obtain ⟨one, fits⟩ := stays
        cases point' with
        | returned => exact fits.elim
        | _ =>
            refine ⟨sound, one, ?_, single.consumer⟩
            intro call member
            cases member
            exact fits
      · obtain ⟨one, rfl⟩ := ends
        refine ⟨sound, ?_, by simp [Producer.arrive], single.consumer⟩
        change OneBlock size (channel.left.enqueued ++ [call.1]).length channel.count queue'
        rw [List.length_append]
        exact one

theorem Single.consumer_step (power : ∃ exponent, size = 2 ^ exponent) (single : channel.Single maxSize size)
    {move : ConsumerMove} (taken : channel.step (.inr move) = some next) : next.Single maxSize size := by
  have sound := single.sound.step taken
  obtain ⟨memory, consumer, went, rfl⟩ := Threads.step_inr taken
  cases move with
  | tryDequeue =>
      obtain ⟨_, rfl, rfl⟩ := Consumer.step_tryDequeue went
      refine ⟨sound, single.one, single.producer, ?_⟩
      intro point member
      cases member
      trivial
  | proceed =>
      obtain ⟨point, calling, stepped⟩ := Option.bind_eq_some_iff.mp went
      obtain ⟨⟨queue', point'⟩, ran, same⟩ := Option.map_eq_some_iff.mp stepped
      cases same
      rcases tryDequeue_stays power single.one (single.consumer point calling) ran with stays | ends
      · obtain ⟨one, goesOn | rfl⟩ := stays
        · cases point' with
          | returned => exact goesOn.elim
          | _ =>
              refine ⟨sound, one, single.producer, ?_⟩
              intro point member
              cases member
              exact goesOn
        · refine ⟨sound, ?_, ?_, by simp [Consumer.arrive]⟩
          · simpa [count, Consumer.arrive, List.reduceOption_append] using one
          · simpa [count, Consumer.arrive, List.reduceOption_append] using single.producer
      · obtain ⟨one, result, rfl⟩ := ends
        refine ⟨sound, ?_, ?_, by simp [Consumer.arrive]⟩
        · simpa [count, Consumer.arrive, List.reduceOption_append] using one
        · intro call member
          refine (single.producer call member).later ?_
          simp [count, Consumer.arrive, List.reduceOption_append]

/-- While every call that enqueues begins with fewer than `maxSize` elements enqueued
and not returned, the block of the constructor stays the only one. -/
theorem allocates_once {maxSize : Nat} (positive : 0 < maxSize) (small : maxSize < 2 ^ 63)
    (moves : List (ChannelMove α)) (channel : Channel α)
    (fewer : Along step (Fewer maxSize) (start maxSize) moves)
    (ran : run step (start maxSize) moves = some channel) : channel.memory.allocated = 1 := by
  have fits : sizeT (maxSize + 1) = maxSize + 1 := by
    simp only [sizeT]
    omega
  obtain ⟨exponent, size, large⟩ := ceilToPow2_size (show 1 < maxSize + 1 by omega) (by omega)
  have power : ∃ power, 2 ^ (exponent + 1) = 2 ^ power := ⟨exponent + 1, rfl⟩
  have initially : (start maxSize : Channel α).Single maxSize (2 ^ (exponent + 1)) := by
    refine ⟨certain_start positive small, ⟨rfl, rfl, rfl, ?_, ?_, ?_⟩, by simp [start], by simp [start]⟩
    · change ceilToPow2 (sizeT (maxSize + 1)) = _
      rw [fits, size]
    · exact (Nat.zero_mod _).symm
    · exact (Nat.zero_mod _).symm
  have single : channel.Single maxSize (2 ^ (exponent + 1)) := by
    refine run_invariant initially ?_ fewer ran
    intro state move next single fewer taken
    cases move with
    | inl move => exact single.producer_step power (by omega) fewer taken
    | inr move => exact single.consumer_step power taken
  exact single.one.allocated

/-- Two elements are enqueued where one fits, but the first is returned before. -/
def alternating : List (ChannelMove Nat) :=
  .inl (.enqueue 1) :: List.replicate 5 (.inl .proceed) ++ .inr .tryDequeue :: List.replicate 6 (.inr .proceed) ++
    .inl (.enqueue 2) :: List.replicate 5 (.inl .proceed)

theorem allocates_once_alternating :
    ∃ channel, run step (start 1) alternating = some channel ∧ channel.left.enqueued = [1, 2] ∧
      channel.memory.allocated = 1 := by
  have positive : 0 < 1 := by decide
  have small : 1 < 2 ^ 63 := by decide
  exact ⟨_, rfl, rfl, allocates_once positive small alternating _ (by decide) rfl⟩

end Channel

end Webapp.Queues

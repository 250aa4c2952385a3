import Webapp.Queues.Enqueue
import Webapp.Queues.Dequeue

namespace Webapp.Queues

open Webapp.Data

/-! `ReaderWriterQueue` with its two threads, over whole runs: every interleaving
keeps the order of the elements, no step of it is undefined, and the destructor
finds every element and every block once.
-/

variable {α : Type}

/-- The queue with its two threads. -/
abbrev Channel (α : Type) := Threads (ReaderWriterQueue α) (Producer α) (Consumer α)

abbrev ChannelMove (α : Type) := ProducerMove α ⊕ ConsumerMove

namespace Channel

def start (maxSize : Nat) : Channel α := ⟨.create maxSize, ⟨none, []⟩, ⟨none, []⟩⟩

def step (channel : Channel α) (move : ChannelMove α) : Option (Channel α) :=
  Threads.step Producer.step Consumer.step channel move

/-- The element that the consumer has taken and not returned yet. -/
def inHand (channel : Channel α) : List α :=
  match channel.right.call with
  | some point => point.inHand
  | none => []

end Channel

namespace Layout

def initial : Layout α := ⟨[0], [], none, fun _ => [], 0, none, []⟩

theorem describes_initial {maxSize : Nat} (positive : 0 < maxSize) (small : maxSize < 2 ^ 63) :
    (initial : Layout α).Describes (.create maxSize) := by
  have fits : sizeT (maxSize + 1) = maxSize + 1 := by
    simp only [sizeT]
    omega
  have power : ∃ exponent, ceilToPow2 (sizeT (maxSize + 1)) = 2 ^ (exponent + 1) := by
    rw [fits]
    obtain ⟨exponent, size, _⟩ := ceilToPow2_size (show 1 < maxSize + 1 by omega) (by omega)
    exact ⟨exponent, size⟩
  refine ⟨Ring.singleton rfl, by simp [initial], ?_, power, ?_, by simp [initial], by simp [initial]⟩
  · intro block
    simp only [ReaderWriterQueue.create, initial, List.append_nil, List.mem_singleton, reduceCtorEq, or_false]
    omega
  · intro block _
    have holds : (Block.create (ceilToPow2 (sizeT (maxSize + 1))) 0 : Block α).Holds 0 0 [] := .create power
    have released : (initial : Layout α).releasedAt (.create maxSize) block = 0 := by
      simp [releasedAt, initial]
    rw [released]
    exact holds

variable {layout : Layout α} {queue : ReaderWriterQueue α}

theorem slotsFrom_eq {places : List Nat} {first more : Nat}
    (chain : places.IsChain fun place following => (queue.blocks place).next = following)
    (head : places.head? = some first) (last : places.getLast? = some queue.tailBlock) (nodup : places.Nodup)
    (enough : places.length ≤ more) :
    queue.slotsFrom more first = places.flatMap fun place => (queue.blocks place).slots := by
  induction places generalizing first more with
  | nil => cases head
  | cons place places ih =>
      cases head
      obtain ⟨more, rfl⟩ : ∃ fewer, more = fewer + 1 := ⟨more - 1, by simp only [List.length_cons] at enough; omega⟩
      rw [ReaderWriterQueue.slotsFrom, List.flatMap_cons]
      cases places with
      | nil =>
          cases last
          simp
      | cons following rest =>
          obtain ⟨linked, chain⟩ := List.isChain_cons_cons.mp chain
          rw [List.getLast?_cons_cons] at last
          have apart : place ≠ queue.tailBlock := fun same =>
            (List.nodup_cons.mp nodup).1 (same ▸ List.mem_of_getLast? last)
          rw [if_neg apart, linked, ih chain rfl last (List.nodup_cons.mp nodup).2
            (by simpa using enough)]

theorem Describes.used_length (describes : layout.Describes queue) :
    layout.used.length ≤ queue.allocated := by
  have nodup := (List.nodup_append.mp describes.ring.nodup).1
  have inside : layout.used ⊆ List.range queue.allocated := fun block member =>
    List.mem_range.mpr ((describes.allocated block).mpr (.inl (List.mem_append_left _ member)))
  simpa using (List.subperm_of_subset nodup inside).length_le

/-- What can be read off the memory are the published items. -/
theorem Describes.contents (describes : layout.Describes queue) : queue.contents = layout.visible := by
  have ring := describes.ring
  have chain := (List.isChain_append.mp ring.chain).1
  have nodup := (List.nodup_append.mp ring.nodup).1
  rw [ReaderWriterQueue.contents, slotsFrom_eq chain ring.first ring.last nodup describes.used_length, visible,
    List.reduceOption, List.filterMap_flatMap]
  apply List.flatMap_congr
  intro block member
  exact (describes.blocks block (List.mem_append_left _ member)).slots

theorem Describes.exists_published (describes : layout.Describes queue) (nonempty : queue.contents ≠ []) :
    ∃ block ∈ layout.used, 0 < layout.published block := by
  rw [describes.contents, Layout.visible, ne_eq, List.flatMap_eq_nil_iff] at nonempty
  push Not at nonempty
  obtain ⟨block, member, some⟩ := nonempty
  refine ⟨block, member, Nat.pos_of_ne_zero fun zero => some ?_⟩
  rw [zero, List.take_zero]

theorem visible_of_unpublished (outside : ∀ block ∈ layout.unpublished, block ∉ layout.used) :
    layout.visible = layout.used.flatMap layout.items := by
  apply List.flatMap_congr
  intro block member
  have none : layout.unpublishedAt block = 0 := if_neg fun pending => outside block pending member
  rw [published, none, Nat.sub_zero, List.take_length]

theorem visible_of_pending (describes : layout.Describes queue) (pending : layout.unpublished = some queue.tailBlock) :
    layout.visible = (layout.used.flatMap layout.items).dropLast := by
  obtain ⟨earlier, shape⟩ := List.getLast?_eq_some_iff.mp describes.ring.last
  have nodup := (List.nodup_append.mp describes.ring.nodup).1
  have one : layout.unpublishedAt queue.tailBlock = 1 := if_pos pending
  have holds := describes.blocks _ describes.tail_mem
  have filled := holds.pending
  rw [one] at filled
  have nonempty : layout.items queue.tailBlock ≠ [] := by
    intro empty
    simp [empty] at filled
  have others : (earlier.flatMap fun block => (layout.items block).take (layout.published block)) =
      earlier.flatMap layout.items := by
    apply List.flatMap_congr
    intro block member
    have apart : block ≠ queue.tailBlock := by
      rw [shape, List.nodup_append] at nodup
      exact fun same => nodup.2.2 block member queue.tailBlock (by simp) same
    have none : layout.unpublishedAt block = 0 :=
      describes.unpublishedAt_of_ne (by rw [shape]; exact List.mem_append_left _ member) apart
    rw [published, none, Nat.sub_zero, List.take_length]
  rw [visible, shape, List.flatMap_append, List.flatMap_append, others, List.flatMap_singleton, List.flatMap_singleton,
    List.dropLast_append_of_ne_nil nonempty, published, one, List.dropLast_eq_take]

end Layout

/-- Apart from the item that the producer is about to publish, the items in use are
those that can be seen. -/
theorem Producer.Knows.enqueued {layout : Layout α} {queue : ReaderWriterQueue α} {producer : Producer α}
    (describes : layout.Describes queue) (knows : producer.Knows layout queue) :
    producer.enqueued = layout.gone ++ layout.visible := by
  have settled (none : ∀ block ∈ layout.unpublished, block ∉ layout.used) :
      layout.history = layout.gone ++ layout.visible := by
    rw [Layout.visible_of_unpublished none, Layout.history]
  rw [Producer.Knows] at knows
  split at knows
  · rw [← knows.2]
    exact settled (by rw [knows.1.unpublished]; simp)
  · rename_i element canAlloc point calling
    obtain ⟨known, busy, arrived⟩ := knows
    cases point with
    | storeTail tailBlock nextBlockTail =>
        obtain ⟨pending, _, _, rfl, _⟩ := known
        have nonempty : layout.used.flatMap layout.items ≠ [] := by
          have filled := (describes.blocks _ describes.tail_mem).pending
          rw [Layout.unpublishedAt, if_pos pending] at filled
          intro empty
          have none := List.flatMap_eq_nil_iff.mp empty _ describes.ring.tail_mem
          simp [none] at filled
        have shorter := congrArg List.dropLast arrived
        rw [Layout.history, List.dropLast_append_of_ne_nil nonempty] at shorter
        rw [Layout.visible_of_pending describes pending, shorter]
        simp [EnqueuePoint.entered]
    | returned result => exact absurd rfl (busy result)
    | storeNextTail tailBlockNext nextBlockTail =>
        obtain ⟨pending, _, _, ahead, _⟩ := known
        have outside := describes.free_notMem_used (Ahead.mem ahead)
        rw [← List.append_nil producer.enqueued]
        refine arrived.symm.trans (settled ?_)
        intro block member
        rw [pending] at member
        cases member
        exact outside
    | loadTailBlock =>
        rw [← List.append_nil producer.enqueued]
        exact arrived.symm.trans (settled (by rw [known.unpublished]; simp))
    | link | storeTailBlock =>
        rw [← List.append_nil producer.enqueued]
        exact arrived.symm.trans (settled (by rw [known.1]; simp))
    | _ =>
        rw [← List.append_nil producer.enqueued]
        exact arrived.symm.trans (settled (by rw [known.1.unpublished]; simp))

namespace Channel

/-- The invariant of the channel, for a call of the consumer that is sure of an
element or not. -/
def Certain (sure : Prop) (channel : Channel α) : Prop :=
  Joint Layout.Describes Producer.Knows (Consumer.Knows sure) channel

def Sound (channel : Channel α) : Prop := channel.Certain False

variable {sure : Prop} {channel next : Channel α}

theorem certain_start {maxSize : Nat} (positive : 0 < maxSize) (small : maxSize < 2 ^ 63) :
    (start maxSize : Channel α).Certain sure :=
  ⟨.initial, Layout.describes_initial positive small, ⟨⟨rfl, rfl, rfl⟩, rfl⟩, rfl, rfl⟩

theorem Certain.mono {certain : Prop} (implies : channel.right.call ≠ none → certain → sure)
    (holds : channel.Certain sure) : channel.Certain certain := by
  obtain ⟨layout, describes, left, right⟩ := holds
  exact ⟨layout, describes, left, right.mono implies⟩

theorem Certain.produce (holds : channel.Certain sure) {move : ProducerMove α}
    (taken : channel.step (.inl move) = some next) : next.Certain sure := by
  obtain ⟨memory, producer, went, _⟩ := Threads.step_inl taken
  obtain ⟨next', taken', holds'⟩ :=
    holds.left_step Producer.proceeds Consumer.stable (Producer.able_of_step (by rw [went]; rfl))
  cases taken.symm.trans taken'
  exact holds'

theorem step_tryDequeue (taken : channel.step (.inr .tryDequeue) = some next) :
    channel.right.call = none ∧ next = { channel with right := ⟨some .loadTailBlock, channel.right.returned⟩ } := by
  obtain ⟨memory, consumer, went, rfl⟩ := Threads.step_inr taken
  obtain ⟨idle, rfl, rfl⟩ := Consumer.step_tryDequeue went
  exact ⟨idle, rfl⟩

theorem Certain.begin (holds : channel.Certain sure) (nonempty : sure → channel.memory.contents ≠ [])
    (taken : channel.step (.inr .tryDequeue) = some next) : next.Certain sure := by
  obtain ⟨layout, describes, left, right⟩ := holds
  obtain ⟨idle, rfl⟩ := step_tryDequeue taken
  refine ⟨layout, describes, left, Consumer.begin_knows right idle fun certain => ?_⟩
  exact describes.exists_published (nonempty certain)

/-- A call that is sure of an element does not answer false. -/
theorem Certain.consume (holds : channel.Certain sure) (taken : channel.step (.inr .proceed) = some next) :
    next.Certain sure ∧ (sure → next.right.returned ≠ channel.right.returned ++ [none]) := by
  obtain ⟨layout, describes, left, right⟩ := holds
  obtain ⟨memory, consumer, went, rfl⟩ := Threads.step_inr taken
  have able : channel.right.Able .proceed := Consumer.able_of_step (by rw [went]; rfl)
  obtain ⟨point, calling⟩ := Option.ne_none_iff_exists'.mp able
  obtain ⟨_, point', layout', went', describes', knows', taken', promise⟩ :=
    Consumer.proceed_leads describes right calling
  rw [Consumer.step, calling, Option.bind_some, went'] at went
  cases went
  have left' := Producer.stable _ _ _ _ _ describes describes' promise left
  refine ⟨⟨layout', describes', left', Consumer.arrive_knows knows' taken'⟩, fun certain refused => ?_⟩
  obtain rfl := Consumer.arrive_refused refused
  exact knows'.2 certain rfl

theorem Sound.step {move : ChannelMove α} (sound : channel.Sound) (taken : channel.step move = some next) :
    next.Sound :=
  Joint.step Producer.proceeds Consumer.proceeds Producer.stable Consumer.stable
    (fun _ _ _ some => Producer.able_of_step some) (fun _ _ _ some => Consumer.able_of_step some) sound taken

theorem Sound.reached {maxSize : Nat} (positive : 0 < maxSize) (small : maxSize < 2 ^ 63)
    {moves : List (ChannelMove α)} (ran : run Channel.step (start maxSize) moves = some channel) : channel.Sound :=
  run_preserves (certain_start positive small) (fun sound taken => sound.step taken) ran

theorem Certain.order (holds : channel.Certain sure) :
    channel.left.enqueued = channel.right.returned.reduceOption ++ channel.inHand ++ channel.memory.contents := by
  obtain ⟨layout, describes, left, right⟩ := holds
  rw [Producer.Knows.enqueued describes left, describes.contents]
  congr 1
  rw [Consumer.Knows] at right
  rw [inHand]
  split at right
  · rename_i idle
    rw [idle, right.2, List.append_nil]
  · rename_i point calling
    rw [calling, right.2.2]

theorem Certain.proceed (holds : channel.Certain sure) :
    (channel.left.call ≠ none → ∃ next, channel.step (.inl .proceed) = some next) ∧
      (channel.right.call ≠ none → ∃ next, channel.step (.inr .proceed) = some next) := by
  constructor
  · intro busy
    have able : channel.left.Able .proceed := busy
    obtain ⟨next, taken, _⟩ := holds.left_step Producer.proceeds Consumer.stable able
    exact ⟨next, taken⟩
  · intro busy
    have able : channel.right.Able .proceed := busy
    have sound : channel.Sound := holds.mono (by simp)
    obtain ⟨next, taken, _⟩ := sound.right_step Consumer.proceeds Producer.stable able
    exact ⟨next, taken⟩

/-- In every interleaving of the two threads, what was returned, the element in the
consumer's hand and the contents of the queue are together what was enqueued, in
that order, and a call in progress can always take its next step. -/
theorem channel_fifo {maxSize : Nat} (positive : 0 < maxSize) (small : maxSize < 2 ^ 63)
    (moves : List (ChannelMove α)) (channel : Channel α) (ran : run step (start maxSize) moves = some channel) :
    channel.left.enqueued =
        channel.right.returned.reduceOption ++ channel.inHand ++ channel.memory.contents ∧
      (channel.left.call ≠ none → ∃ next, channel.step (.inl .proceed) = some next) ∧
      (channel.right.call ≠ none → ∃ next, channel.step (.inr .proceed) = some next) := by
  have sound := Sound.reached positive small ran
  exact ⟨Certain.order sound, Certain.proceed sound⟩

/-- A second block is allocated while the consumer is between its loads. -/
def overflowing : List (ChannelMove Nat) :=
  .inl (.enqueue 1) :: List.replicate 5 (.inl .proceed) ++ .inl (.enqueue 2) :: List.replicate 4 (.inl .proceed) ++
    .inr .tryDequeue :: List.replicate 3 (.inr .proceed) ++ List.replicate 4 (.inl .proceed) ++
    List.replicate 2 (.inr .proceed)

theorem channel_fifo_overflowing :
    ∃ channel, run step (start 1) overflowing = some channel ∧ channel.memory.allocated = 2 ∧
      channel.left.enqueued = [] ++ [1] ++ [2] := by
  have positive : 0 < 1 := by decide
  have small : 1 < 2 ^ 63 := by decide
  exact ⟨_, rfl, rfl, (channel_fifo positive small overflowing _ rfl).1⟩

/-- During the call in progress, before it had loaded anything, the queue was empty. -/
def WasEmpty (maxSize : Nat) (moves : List (ChannelMove α)) (channel : Channel α) : Prop :=
  ∃ earlier middle, earlier <+: moves ∧ run step (start maxSize) earlier = some middle ∧
    middle.right.call = some .loadTailBlock ∧ middle.right.returned = channel.right.returned ∧
    middle.memory.contents = []

theorem WasEmpty.later {maxSize : Nat} {moves more : List (ChannelMove α)} {channel next : Channel α}
    (wasEmpty : WasEmpty maxSize moves channel) (same : next.right.returned = channel.right.returned) :
    WasEmpty maxSize (moves ++ more) next := by
  obtain ⟨earlier, middle, part, ran, calling, returned, empty⟩ := wasEmpty
  exact ⟨earlier, middle, part.trans (List.prefix_append _ _), ran, calling, returned.trans same.symm, empty⟩

/-- Unless the queue was empty before the call loaded anything, the call is sure to
return an element. -/
def Answers (maxSize : Nat) (moves : List (ChannelMove α)) (channel : Channel α) : Prop :=
  channel.Certain (¬ WasEmpty maxSize moves channel)

theorem Answers.step {maxSize : Nat} {past : List (ChannelMove α)} {move : ChannelMove α}
    (ran : run Channel.step (start maxSize) past = some channel) (answers : channel.Answers maxSize past)
    (taken : channel.step move = some next) : next.Answers maxSize (past ++ [move]) := by
  have later (same : next.right.returned = channel.right.returned) :
      ¬ WasEmpty maxSize (past ++ [move]) next → ¬ WasEmpty maxSize past channel := fun never wasEmpty =>
    never (wasEmpty.later same)
  match move with
  | .inl move =>
      obtain ⟨memory, producer, _, rfl⟩ := Threads.step_inl taken
      exact (Certain.produce answers taken).mono fun _ => later rfl
  | .inr .tryDequeue =>
      have reached : run Channel.step (start maxSize) (past ++ [.inr .tryDequeue]) = some next := by
        rw [run_append, ran, Option.bind_some, run, taken]
        rfl
      obtain ⟨idle, same⟩ := step_tryDequeue taken
      have unsure : channel.Certain (¬ WasEmpty maxSize (past ++ [.inr .tryDequeue]) next) :=
        Certain.mono (fun busy => absurd idle busy) answers
      refine unsure.begin (fun never empty => never ⟨_, next, List.prefix_refl _, reached, ?_, rfl, ?_⟩) taken
      · rw [same]
      · rw [same]
        exact empty
  | .inr .proceed =>
      refine (Certain.consume answers taken).1.mono fun busy => later ?_
      obtain ⟨memory, consumer, went, rfl⟩ := Threads.step_inr taken
      obtain ⟨point, _, stepped⟩ := Option.bind_eq_some_iff.mp went
      obtain ⟨after, _, same⟩ := Option.map_eq_some_iff.mp stepped
      cases same
      exact Consumer.arrive_returned busy

/-- The answer false is given only if the queue was empty at some time during the
call. -/
theorem tryDequeue_refuses_empty {maxSize : Nat} (positive : 0 < maxSize) (small : maxSize < 2 ^ 63)
    (moves : List (ChannelMove α)) (channel next : Channel α) (ran : run step (start maxSize) moves = some channel)
    (answered : channel.step (.inr .proceed) = some next)
    (refused : next.right.returned = channel.right.returned ++ [none]) : WasEmpty maxSize moves channel := by
  have initially : Answers maxSize [] (start maxSize : Channel α) := certain_start positive small
  have answers : channel.Answers maxSize moves :=
    run_history initially (fun _ _ _ _ ran answers taken => Answers.step ran answers taken) ran
  by_contra never
  exact (Certain.consume answers answered).2 never refused

/-- The second element goes to a new block, which becomes the tail block after the
consumer has loaded the old one. -/
def overtakenCheck : List (ChannelMove Nat) :=
  .inl (.enqueue 1) :: List.replicate 5 (.inl .proceed) ++ .inl (.enqueue 2) :: List.replicate 2 (.inl .proceed) ++
    .inr .tryDequeue :: List.replicate 6 (.inr .proceed) ++ List.replicate 5 (.inl .proceed) ++
    [.inr .tryDequeue, .inr .proceed, .inl .proceed, .inr .proceed, .inr .proceed]

theorem tryDequeue_refuses_overtaken :
    ∃ channel next, run step (start 1) overtakenCheck = some channel ∧ channel.memory.contents = [2] ∧
      channel.step (.inr .proceed) = some next ∧ next.right.returned = [some 1, none] ∧
      WasEmpty 1 overtakenCheck channel := by
  have positive : 0 < 1 := by decide
  have small : 1 < 2 ^ 63 := by decide
  exact ⟨_, _, rfl, rfl, rfl, rfl, tryDequeue_refuses_empty positive small overtakenCheck _ _ rfl rfl rfl⟩

end Channel

end Webapp.Queues

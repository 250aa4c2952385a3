import Webapp.Queues.Fifo
import Webapp.Workers.Queue

namespace Webapp.Queues

open Webapp.Data Webapp.Workers

/-! `LockedQueue` over the queue it is made of.  `Traffic` takes the inner queue for
a list that is changed in one step; here its calls are those of
`ReaderWriterQueue`, with every load and store, for one thread that enqueues.
-/

variable {α : Type}

/-- Where `LockedQueue::enqueue` is. -/
inductive EnqueueStage (α : Type) where
  | idle
  | testing (item : α)
  | pushing (item : α)
  | counting (item : α)

/-- In the stages `pushing` and `popping` a call to the inner queue is in progress. -/
structure Locked (α : Type) where
  aborted : Bool
  count : Nat
  channel : Channel α
  producer : EnqueueStage α
  consumer : Workers.Consumer
  returned : List (Option α)

inductive LockedMove (α : Type) where
  | enqueue (item : α)
  | advance
  | abort
  | dequeue
  | consume
  | wake

namespace Locked

def start (sz : Nat) : Locked α := ⟨false, 0, .start (if sz = 0 then 100 else sz), .idle, .idle, []⟩

def advance (locked : Locked α) : Option (Locked α) :=
  match locked.producer with
  | .idle => none
  | .testing item =>
      if locked.aborted then some { locked with producer := .idle }
      else (locked.channel.step (.inl (.enqueue item))).map fun channel =>
        { locked with channel, producer := .pushing item }
  | .pushing item => (locked.channel.step (.inl .proceed)).map fun channel =>
      { locked with channel, producer := if channel.left.call.isNone then .counting item else .pushing item }
  | .counting _ => some { locked with
      count := locked.count + 1
      producer := .idle
      consumer := locked.consumer.notified }

def consume (locked : Locked α) : Option (Locked α) :=
  match locked.consumer with
  | .testing =>
      if locked.aborted then some { locked with consumer := .idle, returned := locked.returned ++ [none] }
      else some { locked with consumer := .waiting }
  | .waiting =>
      if locked.count = 0 then some { locked with consumer := .asleep }
      else (locked.channel.step (.inr .tryDequeue)).map fun channel =>
        { locked with count := locked.count - 1, channel, consumer := .popping }
  | .popping => (locked.channel.step (.inr .proceed)).map fun channel =>
      if channel.right.call.isNone then
        { locked with
          channel
          consumer := .idle
          returned := locked.returned ++ [channel.right.returned.getLast?.join] }
      else { locked with channel }
  | .idle | .asleep => none

/-- `abort` stands for `Worker_ClearCache` and `Worker_Shutdown`, whose own call of
`enqueue` finds the flag set. -/
def step (locked : Locked α) : LockedMove α → Option (Locked α)
  | .enqueue item =>
      match locked.producer with
      | .idle => some { locked with producer := .testing item }
      | _ => none
  | .advance => locked.advance
  | .abort => some { locked with aborted := true }
  | .dequeue => if locked.consumer = .idle then some { locked with consumer := .testing } else none
  | .consume => locked.consume
  | .wake => if locked.consumer = .asleep then some { locked with consumer := .waiting } else none

end Locked

namespace Channel

variable {sure : Prop} {channel next : Channel α}

theorem innerEnqueue_returned {element : α} {queue queue' : ReaderWriterQueue α} {point : EnqueuePoint} {result : Bool}
    (taken : queue.innerEnqueue true element point = some (queue', .returned result)) : result = true := by
  cases point with
  | storeTailBlock =>
      cases taken
      rfl
  | storeTail =>
      obtain ⟨_, _, same⟩ := Option.map_eq_some_iff.mp taken
      cases same
      rfl
  | loadFrontBlock =>
      simp only [ReaderWriterQueue.innerEnqueue, if_true] at taken
      split at taken <;> cases taken
  | loadTail =>
      obtain ⟨_, _, same⟩ := Option.map_eq_some_iff.mp taken
      dsimp only at same
      split at same <;> cases same
  | loadNextTail =>
      obtain ⟨_, _, same⟩ := Option.bind_eq_some_iff.mp taken
      split at same <;> cases same
  | loadTailBlock | returned => cases taken
  | _ =>
      obtain ⟨_, _, same⟩ := Option.map_eq_some_iff.mp taken
      cases same

/-- A step of `enqueue` either leaves the contents as they are or ends the call with
the element at their end. -/
theorem produce_cases {element : α} {point : EnqueuePoint} (holds : channel.Certain sure)
    (calling : channel.left.call = some (element, true, point)) (taken : channel.step (.inl .proceed) = some next) :
    next.right = channel.right ∧
      ((next.left.call = none ∧ next.left.enqueued = channel.left.enqueued ++ [element] ∧
          next.memory.contents = channel.memory.contents ++ [element]) ∨
        (∃ point', next.left.call = some (element, true, point')) ∧
          next.left.enqueued = channel.left.enqueued ∧ next.memory.contents = channel.memory.contents) := by
  have order := holds.order
  have order' := (holds.produce taken).order
  obtain ⟨memory, producer, went, rfl⟩ := Threads.step_inl taken
  obtain ⟨call, found, stepped⟩ := Option.bind_eq_some_iff.mp went
  cases calling.symm.trans found
  obtain ⟨⟨queue', point'⟩, ran, same⟩ := Option.map_eq_some_iff.mp stepped
  cases same
  change (channel.left.arrive element true point').enqueued =
    channel.right.returned.reduceOption ++ channel.inHand ++ queue'.contents at order'
  refine ⟨rfl, ?_⟩
  cases point' with
  | returned result =>
      obtain rfl := innerEnqueue_returned ran
      refine .inl ⟨rfl, rfl, ?_⟩
      change channel.left.enqueued ++ [element] = _ at order'
      rw [order, List.append_assoc] at order'
      exact (List.append_cancel_left order').symm
  | _ =>
      refine .inr ⟨⟨_, rfl⟩, rfl, ?_⟩
      change channel.left.enqueued = _ at order'
      rw [order] at order'
      exact (List.append_cancel_left order').symm

theorem tryDequeue_cases {queue queue' : ReaderWriterQueue α} {point point' : DequeuePoint α}
    (taken : queue.tryDequeue point = some (queue', point')) :
    point' = .returned none ∨ (∃ element, point.inHand = [element] ∧ point' = .returned (some element)) ∨
      (point.inHand = [] ∧ ∃ block front element, point' = .storeFront block front element) ∨
      (point.inHand = [] ∧ point'.inHand = [] ∧ ∀ result, point' ≠ .returned result) := by
  cases point with
  | loadTailBlock | loadFrontBlock | storeFrontBlock =>
      cases taken
      exact .inr (.inr (.inr ⟨rfl, rfl, by simp⟩))
  | returned => cases taken
  | loadFront =>
      obtain ⟨_, _, same⟩ := Option.map_eq_some_iff.mp taken
      split at same
      · cases same
        exact .inr (.inr (.inr ⟨rfl, rfl, by simp⟩))
      · split at same
        · cases same
          exact .inr (.inr (.inr ⟨rfl, rfl, by simp⟩))
        · cases same
          exact .inl rfl
  | take =>
      obtain ⟨_, _, moved⟩ := Option.bind_eq_some_iff.mp taken
      obtain ⟨_, _, same⟩ := Option.map_eq_some_iff.mp moved
      cases same
      exact .inr (.inr (.inl ⟨rfl, _, _, _, rfl⟩))
  | storeFront =>
      obtain ⟨_, _, same⟩ := Option.map_eq_some_iff.mp taken
      cases same
      exact .inr (.inl ⟨_, rfl, rfl⟩)
  | loadNextTail =>
      obtain ⟨_, _, same⟩ := Option.bind_eq_some_iff.mp taken
      split at same
      · cases same
        exact .inr (.inr (.inr ⟨rfl, rfl, by simp⟩))
      · cases same
  | _ =>
      obtain ⟨_, _, same⟩ := Option.map_eq_some_iff.mp taken
      cases same
      exact .inr (.inr (.inr ⟨rfl, rfl, by simp⟩))

theorem step_enqueue {element : α} (taken : channel.step (.inl (.enqueue element)) = some next) :
    next = { channel with left := ⟨some (element, true, .loadTailBlock), channel.left.enqueued⟩ } := by
  obtain ⟨memory, producer, went, rfl⟩ := Threads.step_inl taken
  obtain ⟨begun, began, same⟩ := Option.map_eq_some_iff.mp went
  obtain ⟨_, rfl⟩ := guarded_step began
  cases same
  rfl

theorem step_proceed {next : Channel α} (taken : channel.step (.inr .proceed) = some next) :
    ∃ point queue' point', channel.right.call = some point ∧
      channel.memory.tryDequeue point = some (queue', point') ∧
      next = { channel with memory := queue', right := channel.right.arrive point' } := by
  obtain ⟨memory, consumer, went, rfl⟩ := Threads.step_inr taken
  obtain ⟨point, calling, stepped⟩ := Option.bind_eq_some_iff.mp went
  obtain ⟨⟨queue', point'⟩, ran, same⟩ := Option.map_eq_some_iff.mp stepped
  cases same
  exact ⟨point, queue', point', calling, ran, rfl⟩

/-- What a step of a call of `try_dequeue` that is sure of an element does: it goes on,
takes the first element out of the contents, or returns the element in hand. -/
inductive Proceeded (channel next : Channel α) : Prop
  | on (calling : next.right.call ≠ none) (returned : next.right.returned = channel.right.returned)
      (inHand : next.inHand = channel.inHand) (contents : next.memory.contents = channel.memory.contents)
  | take {element : α} (calling : next.right.call ≠ none) (returned : next.right.returned = channel.right.returned)
      (before : channel.inHand = []) (inHand : next.inHand = [element])
      (contents : channel.memory.contents = element :: next.memory.contents)
  | answer {element : α} (idle : next.right.call = none)
      (returned : next.right.returned = channel.right.returned ++ [some element])
      (before : channel.inHand = [element]) (inHand : next.inHand = [])
      (contents : next.memory.contents = channel.memory.contents)

theorem Certain.proceeded (holds : channel.Certain True) (taken : channel.step (.inr .proceed) = some next) :
    next.left = channel.left ∧ Proceeded channel next := by
  have order := holds.order
  obtain ⟨holds', answers⟩ := holds.consume taken
  have order' := holds'.order
  obtain ⟨point, queue', point', calling, ran, rfl⟩ := step_proceed taken
  have hand : channel.inHand = point.inHand := by rw [inHand, calling]
  change channel.left.enqueued = _ at order'
  rw [order] at order'
  refine ⟨rfl, ?_⟩
  rcases tryDequeue_cases ran with rfl | ⟨element, before, rfl⟩ | ⟨before, block, front, element, rfl⟩ |
      ⟨before, after, busy⟩
  · exact absurd rfl (answers trivial)
  · refine .answer rfl rfl (hand.trans before) rfl ?_
    rw [hand, before] at order'
    simpa [inHand, Consumer.arrive, List.reduceOption_append] using order'.symm
  · refine .take (by simp [Consumer.arrive]) rfl (hand.trans before) rfl ?_
    rw [hand, before] at order'
    simpa [inHand, Consumer.arrive, DequeuePoint.inHand] using order'
  · have stays : channel.right.arrive point' = ⟨some point', channel.right.returned⟩ := by
      cases point' with
      | returned result => exact absurd rfl (busy result)
      | _ => rfl
    have same : inHand { channel with memory := queue', right := channel.right.arrive point' } = channel.inHand := by
      rw [inHand, stays, hand, before]
      exact after
    refine .on (by rw [stays]; simp) (by rw [stays]) same ?_
    rw [same, stays] at order'
    exact (List.append_cancel_left order').symm

end Channel

namespace Locked

/-- Where `Traffic` has the consumer: once the element is taken its call is over. -/
def stage (locked : Locked α) : Workers.Consumer :=
  if locked.channel.inHand = [] then locked.consumer else .idle

/-- What the producer's stage says of its call to the inner queue and of the calls of
`Traffic`. -/
def Calls (producer : EnqueueStage α) (call : Option (α × Bool × EnqueuePoint)) (calls : List (EnqueueCall α)) : Prop :=
  match producer with
  | .idle => call = none
  | .testing item => call = none ∧ .testing (some item) ∈ calls
  | .pushing item => (∃ point, call = some (item, true, point)) ∧ .pushing (some item) ∈ calls
  | .counting item => call = none ∧ .counting (some item) ∈ calls

theorem Calls.append {producer : EnqueueStage α} {call : Option (α × Bool × EnqueuePoint)}
    {calls more : List (EnqueueCall α)} (holds : Calls producer call calls) : Calls producer call (calls ++ more) := by
  cases producer with
  | idle => exact holds
  | testing item | pushing item | counting item => exact ⟨holds.1, List.mem_append_left _ holds.2⟩

structure Simulates (locked : Locked α) (traffic : Traffic α) : Prop where
  certain : locked.channel.Certain True
  linked : traffic.Linked
  aborted : traffic.shared.aborted = locked.aborted
  count : traffic.shared.count = locked.count
  queue : traffic.shared.queue = locked.channel.memory.contents.map some
  pushed : traffic.pushed = locked.channel.left.enqueued.map some
  returned : traffic.returned = locked.returned ++ locked.channel.inHand.map some
  popping : locked.consumer = .popping ↔ locked.channel.right.call ≠ none
  consumer : traffic.consumer = locked.stage
  producer : Calls locked.producer locked.channel.left.call traffic.calls

/-- `Traffic` gets from a state to one that a state of the model simulates. -/
def Follows (locked : Locked α) (traffic : Traffic α) : Prop :=
  ∃ answers last, run Traffic.step traffic answers = some last ∧ locked.Simulates last

theorem Follows.stay {locked : Locked α} {traffic : Traffic α} (simulates : locked.Simulates traffic) :
    locked.Follows traffic :=
  ⟨[], traffic, rfl, simulates⟩

theorem Follows.of_took {locked : Locked α} {traffic last : Traffic α} {move : Move α} (linked : traffic.Linked)
    (took : Traffic.Took traffic move last) (simulates : last.Linked → locked.Simulates last) :
    locked.Follows traffic :=
  ⟨[move], last, by rw [run, took.taken]; rfl, simulates (linked.step took.taken)⟩

section Steps

variable {locked next : Locked α} {traffic : Traffic α}

theorem Simulates.start {sz : Nat} (small : sz < 2 ^ 32) : (start sz : Locked α).Simulates .start := by
  have certain : (Channel.start (if sz = 0 then 100 else sz) : Channel α).Certain True :=
    Channel.certain_start (by split <;> omega) (by split <;> omega)
  have empty : (Channel.start (if sz = 0 then 100 else sz) : Channel α).memory.contents = [] := certain.order.symm
  refine ⟨certain, .start, rfl, rfl, ?_, rfl, rfl, ⟨by simp [Locked.start], fun busy => absurd rfl busy⟩, rfl, rfl⟩
  rw [Locked.start, empty]
  rfl

theorem Simulates.inHand (simulates : locked.Simulates traffic) (apart : locked.consumer ≠ .popping) :
    locked.channel.inHand = [] := by
  have idle : locked.channel.right.call = none := by
    by_contra busy
    exact apart (simulates.popping.mpr busy)
  rw [Channel.inHand, idle]

theorem Simulates.stage (simulates : locked.Simulates traffic) (apart : locked.consumer ≠ .popping) :
    traffic.consumer = locked.consumer := by
  rw [simulates.consumer, Locked.stage, if_pos (simulates.inHand apart)]

/-- The consumer moves between stages with no call to the inner queue. -/
theorem Simulates.moved (simulates : locked.Simulates traffic) {consumer : Workers.Consumer}
    (before : locked.consumer ≠ .popping) (after : consumer ≠ .popping)
    (linked : Traffic.Linked { traffic with consumer }) :
    Simulates { locked with consumer } { traffic with consumer } where
  __ := simulates
  linked := linked
  popping := by
    have idle := mt simulates.popping.mpr before
    exact ⟨fun same => absurd same after, fun busy => absurd busy idle⟩
  consumer := by
    rw [Locked.stage, if_pos (simulates.inHand before)]

theorem mem_set {calls : List (EnqueueCall α)} {call : Nat} {old new : EnqueueCall α} (found : calls[call]? = some old) :
    new ∈ calls.set call new :=
  List.mem_set (List.getElem?_eq_some_iff.mp found).1 new

theorem testing_follows {item : α} (simulates : locked.Simulates traffic) (testing : locked.producer = .testing item)
    (taken : locked.advance = some next) : next.Follows traffic := by
  have calls := simulates.producer
  rw [testing] at calls
  obtain ⟨idle, member⟩ := calls
  obtain ⟨call, found⟩ := List.mem_iff_getElem?.mp member
  simp only [advance, testing] at taken
  split at taken
  · rename_i aborted
    cases taken
    refine .of_took simulates.linked (.refuse found (simulates.aborted.trans aborted)) fun linked => ?_
    exact { simulates with linked, producer := idle }
  · rename_i running
    have clear : traffic.shared.aborted = false := simulates.aborted.trans (by simpa using running)
    obtain ⟨channel, went, rfl⟩ := Option.map_eq_some_iff.mp taken
    have certain := simulates.certain.produce went
    obtain rfl := Channel.step_enqueue went
    refine .of_took simulates.linked (.proceed found clear) fun linked => ?_
    exact { simulates with certain, linked, producer := ⟨⟨_, rfl⟩, mem_set found⟩ }

theorem pushing_follows {item : α} (simulates : locked.Simulates traffic) (pushing : locked.producer = .pushing item)
    (taken : locked.advance = some next) : next.Follows traffic := by
  have calls := simulates.producer
  rw [pushing] at calls
  obtain ⟨⟨point, calling⟩, member⟩ := calls
  obtain ⟨call, found⟩ := List.mem_iff_getElem?.mp member
  simp only [advance, pushing] at taken
  obtain ⟨channel, went, rfl⟩ := Option.map_eq_some_iff.mp taken
  have certain := simulates.certain.produce went
  obtain ⟨right, cases⟩ := Channel.produce_cases simulates.certain calling went
  have hand : channel.inHand = locked.channel.inHand := by rw [Channel.inHand, right, Channel.inHand]
  have popping := simulates.popping
  have returned := simulates.returned
  have consumer := simulates.consumer
  rw [Locked.stage] at consumer
  rw [← right] at popping
  rw [← hand] at returned consumer
  rcases cases with ⟨ended, enqueued, contents⟩ | ⟨⟨point', still⟩, enqueued, contents⟩
  · refine .of_took simulates.linked (.push found) fun linked => ?_
    refine ⟨certain, linked, simulates.aborted, simulates.count, ?_, ?_, returned, popping, consumer, ?_⟩
    · rw [contents, List.map_append, ← simulates.queue]
      rfl
    · rw [enqueued, List.map_append, ← simulates.pushed]
      rfl
    · simp only [ended, Option.isNone_none, if_true]
      exact ⟨rfl, mem_set found⟩
  · refine .stay ⟨certain, simulates.linked, simulates.aborted, simulates.count, ?_, ?_, returned, popping, consumer, ?_⟩
    · rw [contents, simulates.queue]
    · rw [enqueued, simulates.pushed]
    · simp only [still, Option.isNone_some, Bool.false_eq_true, if_false]
      exact ⟨⟨_, rfl⟩, member⟩

theorem counting_follows {item : α} (simulates : locked.Simulates traffic) (counting : locked.producer = .counting item)
    (taken : locked.advance = some next) : next.Follows traffic := by
  have calls := simulates.producer
  rw [counting] at calls
  obtain ⟨idle, member⟩ := calls
  obtain ⟨call, found⟩ := List.mem_iff_getElem?.mp member
  simp only [advance, counting] at taken
  cases taken
  refine .of_took simulates.linked (.count found) fun linked => ?_
  have popping : locked.consumer.notified = .popping ↔ locked.consumer = .popping := by
    cases locked.consumer <;> decide
  refine { simulates with linked, count := ?_, popping := popping.trans simulates.popping, consumer := ?_, producer := idle }
  · rw [simulates.count]
  · rw [simulates.consumer, Locked.stage, Locked.stage]
    split <;> rfl

theorem popping_follows (simulates : locked.Simulates traffic) (popping : locked.consumer = .popping)
    (taken : locked.consume = some next) : next.Follows traffic := by
  simp only [consume, popping] at taken
  obtain ⟨channel, went, rfl⟩ := Option.map_eq_some_iff.mp taken
  have certain := (simulates.certain.consume went).1
  have calls := simulates.producer
  have pushed := simulates.pushed
  have queue := simulates.queue
  have returned := simulates.returned
  have stage := simulates.consumer
  obtain ⟨left, proceeded⟩ := simulates.certain.proceeded went
  rw [← left] at calls pushed
  rw [Locked.stage, popping] at stage
  cases proceeded with
  | on calling same hand contents =>
      rw [← contents] at queue
      rw [← hand] at returned stage
      rw [if_neg (by simpa using calling)]
      exact .stay ⟨certain, simulates.linked, simulates.aborted, simulates.count, queue, pushed, returned,
        ⟨fun _ => calling, fun _ => rfl⟩, stage, calls⟩
  | @take element calling same before hand contents =>
      rw [before, if_pos rfl] at stage
      rw [contents] at queue
      rw [before] at returned
      rw [if_neg (by simpa using calling)]
      refine .of_took simulates.linked (.pop stage) fun linked => ?_
      refine ⟨certain, linked, simulates.aborted, simulates.count, ?_, pushed, ?_,
        ⟨fun _ => calling, fun _ => rfl⟩, ?_, calls⟩
      · rw [queue]
        rfl
      · rw [returned, queue, hand]
        simp
      · rw [Locked.stage, hand]
        rfl
  | @answer element idle same before hand contents =>
      rw [before, if_neg (by simp)] at stage
      rw [← contents] at queue
      rw [before] at returned
      rw [if_pos (by simpa using idle)]
      refine .stay ⟨certain, simulates.linked, simulates.aborted, simulates.count, queue, pushed, ?_,
        ⟨by simp, fun busy => absurd idle busy⟩, ?_, calls⟩
      · simp [returned, hand, same]
      · rw [Locked.stage, hand]
        exact stage

theorem consumer_testing_follows (simulates : locked.Simulates traffic) (testing : locked.consumer = .testing)
    (taken : locked.consume = some next) : next.Follows traffic := by
  have before : locked.consumer ≠ .popping := by simp [testing]
  have stage : traffic.consumer = .testing := (simulates.stage before).trans testing
  simp only [consume, testing] at taken
  split at taken
  · rename_i aborted
    cases taken
    refine .of_took simulates.linked (.turnAway stage (simulates.aborted.trans aborted)) fun linked => ?_
    have idle := mt simulates.popping.mpr before
    have hand := simulates.inHand before
    have returned := simulates.returned
    rw [hand, List.map_nil, List.append_nil] at returned
    refine { simulates with linked, returned := ?_, popping := ⟨by simp, fun busy => absurd busy idle⟩, consumer := ?_ }
    · rw [returned, hand, List.map_nil, List.append_nil]
    · rw [Locked.stage, hand]
      rfl
  · rename_i running
    cases taken
    have clear : traffic.shared.aborted = false := simulates.aborted.trans (by simpa using running)
    exact .of_took simulates.linked (.enter stage clear) (simulates.moved before (by simp))

theorem waiting_follows (simulates : locked.Simulates traffic) (waiting : locked.consumer = .waiting)
    (taken : locked.consume = some next) : next.Follows traffic := by
  have before : locked.consumer ≠ .popping := by simp [waiting]
  have stage : traffic.consumer = .waiting := (simulates.stage before).trans waiting
  simp only [consume, waiting] at taken
  split at taken
  · rename_i none
    cases taken
    exact .of_took simulates.linked (.sleep stage (simulates.count.trans none)) (simulates.moved before (by simp))
  · rename_i some
    obtain ⟨channel, went, rfl⟩ := Option.map_eq_some_iff.mp taken
    refine .of_took simulates.linked (.pass stage (by rwa [simulates.count])) fun linked => ?_
    -- Past the wait there is an element, so the call is sure of one.
    have nonempty : locked.channel.memory.contents ≠ [] := by
      have filled := linked.nonempty rfl
      rw [simulates.queue] at filled
      simpa using filled
    have certain := simulates.certain.begin (fun _ => nonempty) went
    have hand := simulates.inHand before
    obtain ⟨idle, rfl⟩ := Channel.step_tryDequeue went
    refine { simulates with certain, linked, count := ?_, returned := ?_, popping := ⟨by simp, fun _ => rfl⟩, consumer := rfl }
    · rw [simulates.count]
    · rw [simulates.returned, hand]
      rfl

/-- Every step of the concrete queue is matched by at most one of `Traffic`. -/
theorem step_follows {move : LockedMove α} (simulates : locked.Simulates traffic) (taken : locked.step move = some next) :
    next.Follows traffic := by
  cases move with
  | enqueue item =>
      rw [step] at taken
      split at taken
      · rename_i idle
        cases taken
        have calls := simulates.producer
        rw [idle] at calls
        refine .of_took simulates.linked (.enqueue item) fun linked => ?_
        exact { simulates with linked, producer := ⟨calls, List.mem_append_right _ (List.mem_singleton_self _)⟩ }
      · cases taken
  | advance =>
      cases at_ : locked.producer with
      | idle => simp [step, advance, at_] at taken
      | testing item => exact testing_follows simulates at_ taken
      | pushing item => exact pushing_follows simulates at_ taken
      | counting item => exact counting_follows simulates at_ taken
  | abort =>
      cases taken
      refine .of_took simulates.linked .shutdown fun linked => ?_
      refine { simulates with linked, aborted := rfl, producer := ?_ }
      exact Calls.append simulates.producer
  | dequeue =>
      obtain ⟨idle, rfl⟩ := guarded_step taken
      have before : locked.consumer ≠ .popping := by simp [idle]
      exact .of_took simulates.linked (.dequeue ((simulates.stage before).trans idle)) (simulates.moved before (by simp))
  | consume =>
      cases at_ : locked.consumer with
      | idle | asleep => simp [step, consume, at_] at taken
      | testing => exact consumer_testing_follows simulates at_ taken
      | waiting => exact waiting_follows simulates at_ taken
      | popping => exact popping_follows simulates at_ taken
  | wake =>
      obtain ⟨asleep, rfl⟩ := guarded_step taken
      have before : locked.consumer ≠ .popping := by simp [asleep]
      exact .of_took simulates.linked (.wake ((simulates.stage before).trans asleep)) (simulates.moved before (by simp))

theorem Simulates.proceeds (simulates : locked.Simulates traffic) :
    (locked.producer ≠ .idle → ∃ next, locked.step .advance = some next) ∧
      (locked.consumer ≠ .idle → locked.consumer ≠ .asleep → ∃ next, locked.step .consume = some next) := by
  have calls := simulates.producer
  have popping := simulates.popping
  have proceed := simulates.certain.proceed
  constructor
  · intro busy
    rw [step, advance]
    cases at_ : locked.producer with
    | idle => exact absurd at_ busy
    | testing item =>
        rw [at_] at calls
        dsimp only
        split
        · exact ⟨_, rfl⟩
        · have begins : locked.channel.step (.inl (.enqueue item)) =
              some { locked.channel with left := ⟨some (item, true, .loadTailBlock), locked.channel.left.enqueued⟩ } := by
            simp [Channel.step, Threads.step, Producer.step, Producer.begin, calls.1]
          exact ⟨_, by rw [begins]; rfl⟩
    | pushing item =>
        rw [at_] at calls
        obtain ⟨⟨point, calling⟩, _⟩ := calls
        obtain ⟨channel, went⟩ := proceed.1 (by simp [calling])
        exact ⟨_, by rw [went]; rfl⟩
    | counting item => exact ⟨_, rfl⟩
  · intro busy awake
    rw [step, consume]
    cases at_ : locked.consumer with
    | idle => exact absurd at_ busy
    | asleep => exact absurd at_ awake
    | testing =>
        dsimp only
        split <;> exact ⟨_, rfl⟩
    | waiting =>
        have idle : locked.channel.right.call = none := by
          by_contra calling
          cases at_.symm.trans (popping.mpr calling)
        dsimp only
        split
        · exact ⟨_, rfl⟩
        · have begins : locked.channel.step (.inr .tryDequeue) =
              some { locked.channel with right := ⟨some .loadTailBlock, locked.channel.right.returned⟩ } := by
            simp [Channel.step, Threads.step, Consumer.step, idle]
          exact ⟨_, by rw [begins]; rfl⟩
    | popping =>
        obtain ⟨channel, went⟩ := proceed.2 (popping.mp at_)
        exact ⟨_, by rw [went]; rfl⟩

end Steps

/-- Whatever the threads do, down to each load and store of the inner queue, is what
they could have done had its operations been atomic; and no thread that is inside a
call is ever without a next step, unless it sleeps. -/
theorem locked_refines {sz : Nat} (small : sz < 2 ^ 32) (moves : List (LockedMove α)) (locked : Locked α)
    (ran : run step (start sz) moves = some locked) :
    (∃ answers traffic, run Traffic.step .start answers = some traffic ∧
        traffic.shared = ⟨locked.aborted, locked.count, locked.channel.memory.contents.map some⟩ ∧
        traffic.pushed = locked.channel.left.enqueued.map some ∧
        traffic.returned = locked.returned ++ locked.channel.inHand.map some) ∧
      (locked.producer ≠ .idle → ∃ next, locked.step .advance = some next) ∧
      (locked.consumer ≠ .idle → locked.consumer ≠ .asleep → ∃ next, locked.step .consume = some next) := by
  obtain ⟨answers, traffic, answered, simulates⟩ :=
    run_simulates (.start small) (fun _ _ _ _ simulates taken => step_follows simulates taken) ran
  refine ⟨⟨answers, traffic, answered, ?_, simulates.pushed, simulates.returned⟩, simulates.proceeds⟩
  rw [← simulates.aborted, ← simulates.count, ← simulates.queue]

/-- The consumer falls asleep, is notified, and takes the first element while the
second one is on its way into a new block. -/
def crossing : List (LockedMove Nat) :=
  [.dequeue, .consume, .consume, .enqueue 1] ++ List.replicate 7 .advance ++ [.enqueue 2] ++
    List.replicate 5 .advance ++ List.replicate 5 .consume ++ List.replicate 4 .advance ++ List.replicate 2 .consume

theorem locked_refines_crossing :
    ∃ locked, run step (start 1) crossing = some locked ∧ locked.channel.memory.allocated = 2 ∧
      locked.returned = [some 1] ∧
      ∃ answers traffic, run Traffic.step .start answers = some traffic ∧ traffic.returned = [some 1] := by
  have small : 1 < 2 ^ 32 := by decide
  obtain ⟨answers, traffic, answered, _, _, returned⟩ := (locked_refines small crossing _ rfl).1
  exact ⟨_, rfl, rfl, rfl, answers, traffic, answered, returned⟩

end Locked

end Webapp.Queues

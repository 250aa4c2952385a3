import Webapp.Data.Runs

namespace Webapp.Workers

open Webapp.Data

/-! `LockedQueue`: a lock-free queue of pointers, a counter of its elements that
the consumer waits for, and a flag that ends both sides.  `none` is the null
pointer.
-/

structure LockedQueue (α : Type) where
  aborted : Bool
  count : Nat
  queue : List (Option α)
deriving DecidableEq

inductive EnqueueCall (α : Type) where
  | testing (item : Option α)
  | pushing (item : Option α)
  | counting (item : Option α)
  | returned (item : Option α)
deriving DecidableEq

/-- The consumer in `dequeue`.  Asleep, it is in `cv.wait`; waiting, it is about
to look at the counter, under the lock. -/
inductive Consumer where
  | idle
  | testing
  | waiting
  | asleep
  | popping
deriving DecidableEq, Repr

namespace EnqueueCall

def item {α : Type} : EnqueueCall α → Option α
  | .testing item | .pushing item | .counting item | .returned item => item

def uncounted {α : Type} : EnqueueCall α → Bool
  | .counting _ => true
  | _ => false

def admitted {α : Type} : EnqueueCall α → Bool
  | .pushing _ | .counting _ => true
  | _ => false

end EnqueueCall

namespace Consumer

def notified : Consumer → Consumer
  | .asleep => .waiting
  | consumer => consumer

def inWait : Consumer → Bool
  | .waiting | .asleep => true
  | _ => false

end Consumer

/-- A worker's queue with its threads, and what was pushed and returned so far. -/
structure Traffic (α : Type) where
  shared : LockedQueue α
  calls : List (EnqueueCall α)
  consumer : Consumer
  pushed : List (Option α)
  returned : List (Option α)

inductive Move (α : Type) where
  | enqueue (item : α)
  | shutdown
  | advance (call : Nat)
  | dequeue
  | consume
  | wake

namespace Traffic

variable {α : Type}

def start : Traffic α := ⟨⟨false, 0, []⟩, [], .idle, [], []⟩

def advance (traffic : Traffic α) (call : Nat) : Option (Traffic α) :=
  match traffic.calls[call]? with
  | some (.testing item) =>
      if traffic.shared.aborted then some { traffic with calls := traffic.calls.set call (.returned item) }
      else some { traffic with calls := traffic.calls.set call (.pushing item) }
  | some (.pushing item) =>
      some { traffic with
        shared := { traffic.shared with queue := traffic.shared.queue ++ [item] }
        calls := traffic.calls.set call (.counting item)
        pushed := traffic.pushed ++ [item] }
  | some (.counting item) =>
      some { traffic with
        shared := { traffic.shared with count := traffic.shared.count + 1 }
        calls := traffic.calls.set call (.returned item)
        consumer := traffic.consumer.notified }
  | some (.returned _) | none => none

def consume (traffic : Traffic α) : Option (Traffic α) :=
  match traffic.consumer with
  | .testing =>
      if traffic.shared.aborted then
        some { traffic with consumer := .idle, returned := traffic.returned ++ [none] }
      else some { traffic with consumer := .waiting }
  | .waiting =>
      if traffic.shared.count = 0 then some { traffic with consumer := .asleep }
      else some { traffic with
        shared := { traffic.shared with count := traffic.shared.count - 1 }
        consumer := .popping }
  | .popping =>
      some { traffic with
        shared := { traffic.shared with queue := traffic.shared.queue.tail }
        consumer := .idle
        returned := traffic.returned ++ [traffic.shared.queue.head?.join] }
  | .idle | .asleep => none

/-- One atomic step of one thread.  `Worker_ClearCache` and `Worker_Shutdown` set
the flag and then enqueue the null pointer; a sleeping consumer may also wake up
for no reason. -/
def step (traffic : Traffic α) : Move α → Option (Traffic α)
  | .enqueue item => some { traffic with calls := traffic.calls ++ [.testing (some item)] }
  | .shutdown =>
      some { traffic with
        shared := { traffic.shared with aborted := true }
        calls := traffic.calls ++ [.testing none] }
  | .advance call => traffic.advance call
  | .dequeue => if traffic.consumer = .idle then some { traffic with consumer := .testing } else none
  | .consume => traffic.consume
  | .wake => if traffic.consumer = .asleep then some { traffic with consumer := .waiting } else none

inductive Took (traffic : Traffic α) : Move α → Traffic α → Prop
  | enqueue (item : α) :
      Took traffic (.enqueue item) { traffic with calls := traffic.calls ++ [.testing (some item)] }
  | shutdown :
      Took traffic .shutdown { traffic with
        shared := { traffic.shared with aborted := true }
        calls := traffic.calls ++ [.testing none] }
  | refuse {call : Nat} {item : Option α} (found : traffic.calls[call]? = some (.testing item))
      (aborted : traffic.shared.aborted = true) :
      Took traffic (.advance call) { traffic with calls := traffic.calls.set call (.returned item) }
  | proceed {call : Nat} {item : Option α} (found : traffic.calls[call]? = some (.testing item))
      (running : traffic.shared.aborted = false) :
      Took traffic (.advance call) { traffic with calls := traffic.calls.set call (.pushing item) }
  | push {call : Nat} {item : Option α} (found : traffic.calls[call]? = some (.pushing item)) :
      Took traffic (.advance call) { traffic with
        shared := { traffic.shared with queue := traffic.shared.queue ++ [item] }
        calls := traffic.calls.set call (.counting item)
        pushed := traffic.pushed ++ [item] }
  | count {call : Nat} {item : Option α} (found : traffic.calls[call]? = some (.counting item)) :
      Took traffic (.advance call) { traffic with
        shared := { traffic.shared with count := traffic.shared.count + 1 }
        calls := traffic.calls.set call (.returned item)
        consumer := traffic.consumer.notified }
  | dequeue (idle : traffic.consumer = .idle) : Took traffic .dequeue { traffic with consumer := .testing }
  | turnAway (testing : traffic.consumer = .testing) (aborted : traffic.shared.aborted = true) :
      Took traffic .consume { traffic with consumer := .idle, returned := traffic.returned ++ [none] }
  | enter (testing : traffic.consumer = .testing) (running : traffic.shared.aborted = false) :
      Took traffic .consume { traffic with consumer := .waiting }
  | sleep (waiting : traffic.consumer = .waiting) (none : traffic.shared.count = 0) :
      Took traffic .consume { traffic with consumer := .asleep }
  | pass (waiting : traffic.consumer = .waiting) (some : traffic.shared.count ≠ 0) :
      Took traffic .consume { traffic with
        shared := { traffic.shared with count := traffic.shared.count - 1 }
        consumer := .popping }
  | pop (popping : traffic.consumer = .popping) :
      Took traffic .consume { traffic with
        shared := { traffic.shared with queue := traffic.shared.queue.tail }
        consumer := .idle
        returned := traffic.returned ++ [traffic.shared.queue.head?.join] }
  | wake (asleep : traffic.consumer = .asleep) : Took traffic .wake { traffic with consumer := .waiting }

theorem step_took {traffic next : Traffic α} {move : Move α} (taken : traffic.step move = some next) :
    Took traffic move next := by
  cases move with
  | enqueue item =>
      cases taken
      exact .enqueue item
  | shutdown =>
      cases taken
      exact .shutdown
  | advance call =>
      simp only [step, advance] at taken
      split at taken
      · rename_i item found
        split at taken
        · rename_i aborted
          cases taken
          exact .refuse found aborted
        · rename_i running
          cases taken
          exact .proceed found (by simpa using running)
      · rename_i item found
        cases taken
        exact .push found
      · rename_i item found
        cases taken
        exact .count found
      · contradiction
      · contradiction
  | dequeue =>
      obtain ⟨idle, rfl⟩ := guarded_step taken
      exact .dequeue idle
  | consume =>
      simp only [step, consume] at taken
      split at taken
      · rename_i testing
        split at taken
        · rename_i aborted
          cases taken
          exact .turnAway testing aborted
        · rename_i running
          cases taken
          exact .enter testing (by simpa using running)
      · rename_i waiting
        split at taken
        · rename_i none
          cases taken
          exact .sleep waiting none
        · rename_i some
          cases taken
          exact .pass waiting some
      · rename_i popping
        cases taken
        exact .pop popping
      · contradiction
      · contradiction
  | wake =>
      obtain ⟨asleep, rfl⟩ := guarded_step taken
      exact .wake asleep

theorem Took.taken {traffic next : Traffic α} {move : Move α} (took : Took traffic move next) :
    traffic.step move = some next := by
  cases took <;> simp [step, advance, consume, *]

theorem countP_set {β : Type} {calls : List β} {call : Nat} {before : β}
    (found : calls[call]? = some before) (p : β → Bool) (after : β) :
    (calls.set call after).countP p + (if p before then 1 else 0) =
      calls.countP p + if p after then 1 else 0 := by
  obtain ⟨bound, same⟩ := List.getElem?_eq_some_iff.mp found
  rw [List.countP_set bound, same]
  have least : (if p before then 1 else 0) ≤ calls.countP p := by
    split
    · rename_i counted
      exact List.countP_pos_iff.mpr ⟨before, List.mem_of_getElem? found, counted⟩
    · exact Nat.zero_le _
  omega

theorem forall_mem_set {β : Type} {P : β → Prop} {calls : List β} (each : ∀ call ∈ calls, P call) {call : Nat}
    {before after : β} (found : calls[call]? = some before) (carried : P before → P after) :
    ∀ other ∈ calls.set call after, P other := by
  intro other member
  rcases List.mem_or_eq_of_mem_set member with old | rfl
  · exact each other old
  · exact carried (each before (List.mem_of_getElem? found))

/-- The elements in the queue are those the counter tells of, those whose call
has yet to count them and the one the consumer is about to take. -/
structure Linked (traffic : Traffic α) : Prop where
  size : traffic.shared.queue.length = traffic.shared.count +
    traffic.calls.countP EnqueueCall.uncounted + if traffic.consumer = .popping then 1 else 0
  order : traffic.shared.aborted = false → traffic.pushed = traffic.returned ++ traffic.shared.queue
  pushes : traffic.shared.aborted = false → none ∉ traffic.pushed
  items : traffic.shared.aborted = false → ∀ call ∈ traffic.calls, call.item ≠ none

theorem Linked.start : (start : Traffic α).Linked where
  size := rfl
  order _ := rfl
  pushes _ := List.not_mem_nil
  items _ call member := by contradiction

section

variable {traffic : Traffic α}

theorem Linked.items_set (linked : traffic.Linked) {call : Nat} {before after : EnqueueCall α}
    (found : traffic.calls[call]? = some before) (same : after.item = before.item)
    (running : traffic.shared.aborted = false) :
    ∀ other ∈ traffic.calls.set call after, other.item ≠ none := by
  refine forall_mem_set (linked.items running) found fun given => ?_
  rw [same]
  exact given

theorem Linked.relabel (linked : traffic.Linked) {call : Nat} {before after : EnqueueCall α}
    (found : traffic.calls[call]? = some before) (same : after.item = before.item)
    (counted : after.uncounted = before.uncounted) :
    Linked { traffic with calls := traffic.calls.set call after } where
  size := by
    have moved := countP_set found EnqueueCall.uncounted after
    rw [counted] at moved
    simpa [Nat.add_right_cancel moved] using linked.size
  order := linked.order
  pushes := linked.pushes
  items := linked.items_set found same

theorem Linked.push (linked : traffic.Linked) {call : Nat} {item : Option α}
    (found : traffic.calls[call]? = some (.pushing item)) :
    Linked { traffic with
      shared := { traffic.shared with queue := traffic.shared.queue ++ [item] }
      calls := traffic.calls.set call (.counting item)
      pushed := traffic.pushed ++ [item] } where
  size := by
    have counted := countP_set found EnqueueCall.uncounted (.counting item)
    have size := linked.size
    simp only [EnqueueCall.uncounted, Bool.false_eq_true, if_false, if_true, Nat.add_zero] at counted
    simp only [List.length_append, List.length_singleton, counted, size]
    omega
  order running := by rw [linked.order running, List.append_assoc]
  pushes running := by
    intro member
    rcases List.mem_append.mp member with old | new
    · exact linked.pushes running old
    · have given := linked.items running _ (List.mem_of_getElem? found)
      exact given (List.mem_singleton.mp new).symm
  items := linked.items_set found rfl

theorem Linked.count (linked : traffic.Linked) {call : Nat} {item : Option α}
    (found : traffic.calls[call]? = some (.counting item)) :
    Linked { traffic with
      shared := { traffic.shared with count := traffic.shared.count + 1 }
      calls := traffic.calls.set call (.returned item)
      consumer := traffic.consumer.notified } where
  size := by
    have counted := countP_set found EnqueueCall.uncounted (.returned item)
    have size := linked.size
    have popping : traffic.consumer.notified = .popping ↔ traffic.consumer = .popping := by
      cases traffic.consumer <;> decide
    simp only [EnqueueCall.uncounted, Bool.false_eq_true, if_false, if_true, Nat.add_zero] at counted
    simp only [popping, size]
    omega
  order := linked.order
  pushes := linked.pushes
  items := linked.items_set found rfl

theorem Linked.nonempty (linked : traffic.Linked) (popping : traffic.consumer = .popping) :
    traffic.shared.queue ≠ [] := by
  intro empty
  have size := linked.size
  rw [empty, if_pos popping] at size
  simp at size

theorem Linked.pop (linked : traffic.Linked) (popping : traffic.consumer = .popping) :
    Linked { traffic with
      shared := { traffic.shared with queue := traffic.shared.queue.tail }
      consumer := .idle
      returned := traffic.returned ++ [traffic.shared.queue.head?.join] } where
  size := by
    have size := linked.size
    rw [if_pos popping] at size
    simp only [List.length_tail, size, reduceCtorEq, if_false]
    omega
  order running := by
    obtain ⟨item, rest, shape⟩ := List.exists_cons_of_ne_nil (linked.nonempty popping)
    have order := linked.order running
    simp [order, shape]
  pushes := linked.pushes
  items := linked.items

theorem Linked.moved (linked : traffic.Linked) {consumer : Consumer} (before : traffic.consumer ≠ .popping)
    (after : consumer ≠ .popping) : Linked { traffic with consumer } where
  size := by
    have size := linked.size
    rw [if_neg before] at size
    simp only [size, if_neg after]
  order := linked.order
  pushes := linked.pushes
  items := linked.items

theorem Linked.step {next : Traffic α} {move : Move α} (linked : traffic.Linked)
    (taken : traffic.step move = some next) : next.Linked := by
  cases step_took taken with
  | enqueue item =>
      refine ⟨?_, linked.order, linked.pushes, ?_⟩
      · simpa [EnqueueCall.uncounted] using linked.size
      · intro running call member
        rcases List.mem_append.mp member with old | new
        · exact linked.items running call old
        · obtain rfl := List.mem_singleton.mp new
          simp [EnqueueCall.item]
  | shutdown =>
      refine ⟨?_, ?_, ?_, ?_⟩
      · simpa [EnqueueCall.uncounted] using linked.size
      all_goals
        intro running
        contradiction
  | refuse found aborted => exact linked.relabel found rfl rfl
  | proceed found running => exact linked.relabel found rfl rfl
  | push found => exact linked.push found
  | count found => exact linked.count found
  | dequeue idle => exact linked.moved (by simp [idle]) (by simp)
  | turnAway testing aborted =>
      have moved : Linked { traffic with consumer := .idle } := linked.moved (by simp [testing]) (by simp)
      refine ⟨moved.size, ?_, linked.pushes, linked.items⟩
      intro running
      simp [aborted] at running
  | enter testing running => exact linked.moved (by simp [testing]) (by simp)
  | sleep waiting none => exact linked.moved (by simp [waiting]) (by simp)
  | pass waiting some =>
      refine ⟨?_, linked.order, linked.pushes, linked.items⟩
      have size := linked.size
      simp only [waiting, reduceCtorEq, if_false, if_true] at size ⊢
      omega
  | pop popping => exact linked.pop popping
  | wake asleep => exact linked.moved (by simp [asleep]) (by simp)

end

/-- While the flag is clear nothing is lost, doubled or made up: past the wait
there is an element, and what came out is a first part of what went in. -/
theorem dequeue_returns_pushed (moves : List (Move α)) (traffic : Traffic α)
    (reached : run step start moves = some traffic) (running : traffic.shared.aborted = false) :
    (traffic.consumer = .popping → traffic.shared.queue ≠ []) ∧
      none ∉ traffic.returned ∧ traffic.returned <+: traffic.pushed := by
  have linked : traffic.Linked :=
    run_preserves Linked.start (fun linked taken => linked.step taken) reached
  have begins : traffic.returned <+: traffic.pushed := ⟨_, (linked.order running).symm⟩
  exact ⟨linked.nonempty, fun member => linked.pushes running (begins.subset member), begins⟩

/-- The second element overtakes the first, whose call is between its two
steps when the consumer takes it. -/
def overtaken : List (Move Nat) :=
  [.enqueue 1, .enqueue 2, .dequeue, .consume, .consume, .advance 0, .advance 1, .advance 1, .advance 0,
    .advance 1, .consume, .consume]

theorem dequeue_returns_overtaken :
    ∃ traffic, run step start overtaken = some traffic ∧ traffic.returned = [some 2] ∧
      traffic.returned <+: traffic.pushed :=
  ⟨_, rfl, rfl, (dequeue_returns_pushed overtaken _ rfl rfl).2.2⟩

end Traffic

end Webapp.Workers

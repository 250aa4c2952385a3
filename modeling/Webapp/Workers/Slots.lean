import Webapp.Workers.HandOff
import Webapp.Workers.Pools

namespace Webapp.Workers

open Webapp.Data

/-! The slots of a worker's pools between its acceptor, its connections, its
queue and its script.
-/

def Event.isCompletion : Event → Bool
  | .requestFinish | .acceptConn | .acceptConnAsync _ => false
  | _ => true

def Slot.inFlight (slot : Slot) : Nat := slot.reads + slot.readable + slot.broken

/-- A worker: its pools, the pending accept, the slots, its queue and the
requests its script holds.  `used` are the slots `accept_conn` has handed out. -/
structure Service where
  pools : Pools
  accepting : Option SlotId
  slots : SlotId → Slot
  queued : List SlotId
  processing : List SlotId
  used : List SlotId

inductive ServiceEvent where
  | start
  | acceptConnAsync (accepted : Accepted)
  | completion (id : SlotId) (event : Event)
  | getNext
  | requestFinish (id : SlotId)

namespace Service

def initial : Service := ⟨Pools.start, none, fun _ => Slot.fresh, [], [], []⟩

/-- The handler of a slot has run; what it handed on shows in the counters. -/
def handled (service : Service) (id : SlotId) (after : Slot) : Service :=
  let before := service.slots id
  { service with
    pools := if before.recycled < after.recycled then
        { service.pools with finished := service.pools.finished.enqueue (some id) }
      else service.pools
    slots := Function.update service.slots id after
    queued := if before.enqueued < after.enqueued then service.queued ++ [id] else service.queued }

/-- `accept_conn`; a finished request is reset before it is used again. -/
def acceptConn (init : PoolInit) (service : Service) : Option Service :=
  (service.pools.acceptConn init).map fun accepted =>
    let slot := service.slots accepted.2
    { service with
      pools := accepted.1
      accepting := some accepted.2
      slots := if service.pools.finished.tryDequeue.1.isSome then
          Function.update service.slots accepted.2 { slot with request := slot.request.reset }
        else service.slots
      used := accepted.2 :: service.used }

/-- `accept_conn_async` up to its call of `accept_conn`.  An error is printed and
the request it came for is left alone. -/
def accepted (service : Service) (id : SlotId) : Accepted → Service
  | .connection =>
      let slot := service.slots id
      service.handled id ({ slot with phase := .serving, opened := true }.readRequest true)
  | .error => service
  | .readThrows => service.handled id (service.slots id).recycle

def step (worker : Worker) (init : PoolInit) (service : Service) : ServiceEvent → Option Service
  | .start => if service.used = [] then service.acceptConn init else none
  | .acceptConnAsync accepted =>
      service.accepting.bind fun id => (service.accepted id accepted).acceptConn init
  | .completion id event =>
      if event.isCompletion ∧ id ∈ service.used then
        ((service.slots id).step worker event).map (service.handled id)
      else none
  | .getNext =>
      match service.queued with
      | [] => none
      | id :: rest => some { service with queued := rest, processing := id :: service.processing }
  | .requestFinish id =>
      if id ∈ service.processing then
        let slot := service.slots id
        some { service with
          slots := Function.update service.slots id ({ slot with request := slot.request.reset }.readRequest false)
          processing := service.processing.erase id }
      else none

inductive Took (worker : Worker) (init : PoolInit) (service : Service) : ServiceEvent → Service → Prop
  | start {next : Service} (unused : service.used = []) (accepts : service.acceptConn init = some next) :
      Took worker init service .start next
  | acceptConnAsync {id : SlotId} {next : Service} (accepted : Accepted) (pending : service.accepting = some id)
      (accepts : (service.accepted id accepted).acceptConn init = some next) :
      Took worker init service (.acceptConnAsync accepted) next
  | completion {id : SlotId} {event : Event} {after : Slot} (isCompletion : event.isCompletion = true)
      (used : id ∈ service.used) (handles : (service.slots id).step worker event = some after) :
      Took worker init service (.completion id event) (service.handled id after)
  | getNext {id : SlotId} {rest : List SlotId} (queued : service.queued = id :: rest) :
      Took worker init service .getNext { service with queued := rest, processing := id :: service.processing }
  | requestFinish {id : SlotId} (held : id ∈ service.processing) :
      Took worker init service (.requestFinish id) { service with
        slots := Function.update service.slots id
          ({ service.slots id with request := (service.slots id).request.reset }.readRequest false)
        processing := service.processing.erase id }

theorem step_took {worker : Worker} {init : PoolInit} {service next : Service} {event : ServiceEvent}
    (taken : service.step worker init event = some next) : Took worker init service event next := by
  cases event with
  | start =>
      obtain ⟨unused, accepts⟩ := Option.ite_none_right_eq_some.mp taken
      exact .start unused accepts
  | acceptConnAsync accepted =>
      obtain ⟨id, pending, accepts⟩ := Option.bind_eq_some_iff.mp taken
      exact .acceptConnAsync accepted pending accepts
  | completion id event =>
      obtain ⟨⟨isCompletion, used⟩, taken⟩ := Option.ite_none_right_eq_some.mp taken
      obtain ⟨after, handles, rfl⟩ := Option.map_eq_some_iff.mp taken
      exact .completion isCompletion used handles
  | getNext =>
      simp only [step] at taken
      split at taken
      · contradiction
      · rename_i queued
        cases taken
        exact .getNext queued
  | requestFinish id =>
      obtain ⟨held, rfl⟩ := guarded_step taken
      exact .requestFinish held

def Serving (service : Service) (id : SlotId) : Prop :=
  0 < (service.slots id).inFlight ∨ id ∈ service.queued ∨ id ∈ service.processing

def Elsewhere (service : Service) (id : SlotId) : Prop :=
  some id ∈ service.pools.finished.queue ∨ service.Serving id

/-- Every slot that was handed out and is not finished is bound to the pending
accept or to a connection. -/
def NoneLost (service : Service) : Prop :=
  ∀ id ∈ service.used, some id ∉ service.pools.finished.queue →
    service.accepting = some id ∨ service.Serving id

/-- An accept fails only for a slot that something else has as well. -/
def Kept (service : Service) : ServiceEvent → Prop
  | .acceptConnAsync .error => ∀ id ∈ service.accepting, service.Elsewhere id
  | _ => True

instance (service : Service) (id : SlotId) : Decidable (service.Elsewhere id) :=
  inferInstanceAs (Decidable (some id ∈ service.pools.finished.queue ∨
    0 < (service.slots id).inFlight ∨ id ∈ service.queued ∨ id ∈ service.processing))

instance Kept.decidable (service : Service) : (event : ServiceEvent) → Decidable (service.Kept event)
  | .acceptConnAsync .error => inferInstanceAs (Decidable (∀ id ∈ service.accepting, service.Elsewhere id))
  | .acceptConnAsync .connection | .acceptConnAsync .readThrows | .start | .completion _ _ | .getNext
  | .requestFinish _ => isTrue trivial

end Service

namespace Slot

theorem readRequest_inFlight (slot : Slot) (timed : Bool) :
    (slot.readRequest timed).inFlight = slot.inFlight + 1 := by
  cases timed <;> simp only [readRequest, cancelTimer, inFlight] <;> simp <;> omega

def Settled (before after : Slot) : Prop :=
  0 < after.inFlight ∨ before.enqueued < after.enqueued ∨ before.recycled < after.recycled

theorem recycle_settled (slot : Slot) : slot.Settled slot.recycle := Or.inr (Or.inr (Nat.lt_succ_self _))

theorem processMsgpackRequest_settled (worker : Worker) (slot : Slot) {completion : Completion}
    (acts : completion ≠ .aborted) : slot.Settled (slot.processMsgpackRequest worker completion) := by
  cases completion with
  | success socket =>
      simp only [processMsgpackRequest]
      split
      · cases outcome : (slot.cancelTimer.request.processMsgpackRequest worker (.success socket)).2 with
        | enqueued => exact Or.inr (Or.inl (Nat.lt_succ_self _))
        | rearmed =>
            refine Or.inl ?_
            simp only [readRequest_inFlight]
            exact Nat.succ_pos _
        | recycled => exact Or.inr (Or.inr (Nat.lt_succ_self _))
        | ignored => exact absurd outcome (Request.processMsgpackRequest_acts worker _ socket)
      · exact Or.inr (Or.inr (Nat.lt_succ_self _))
  | failed => exact slot.recycle_settled
  | aborted => exact absurd rfl acts

theorem step_settled {worker : Worker} {slot after : Slot} {event : Event}
    (completion : event.isCompletion = true) (taken : slot.step worker event = some after)
    (flying : 0 < slot.inFlight) : slot.Settled after := by
  cases event with
  | timerExpires =>
      obtain ⟨_, rfl⟩ := guarded_step taken
      exact Or.inl flying
  | socketReadable =>
      obtain ⟨_, rfl⟩ := guarded_step taken
      refine Or.inl ?_
      simp only [inFlight]
      omega
  | socketError =>
      obtain ⟨_, rfl⟩ := guarded_step taken
      refine Or.inl ?_
      simp only [inFlight]
      omega
  | deliverExpired socket =>
      obtain ⟨_, rfl⟩ := guarded_step taken
      exact processMsgpackRequest_settled worker { slot with expired := slot.expired - 1 } (by simp)
  | deliverReadable socket =>
      obtain ⟨_, rfl⟩ := guarded_step taken
      exact processMsgpackRequest_settled worker { slot with readable := slot.readable - 1 } (by simp)
  | deliverBroken =>
      obtain ⟨_, rfl⟩ := guarded_step taken
      exact processMsgpackRequest_settled worker { slot with broken := slot.broken - 1 } (by simp)
  | deliverCancelled =>
      obtain ⟨_, rfl⟩ := guarded_step taken
      exact Or.inl flying
  | requestFinish => contradiction
  | acceptConn => contradiction
  | acceptConnAsync accepted => contradiction

end Slot

namespace Service

theorem noneLost_iff {service : Service} :
    service.NoneLost ↔ ∀ id ∈ service.used, service.accepting = some id ∨ service.Elsewhere id := by
  constructor
  · intro kept id used
    by_cases finished : some id ∈ service.pools.finished.queue
    · exact Or.inr (Or.inl finished)
    · exact (kept id used finished).imp_right Or.inr
  · intro kept id used unfinished
    exact (kept id used).imp_right fun elsewhere => elsewhere.resolve_left unfinished

/-- What holds of the pools whatever becomes of the slots. -/
structure Consistent (init : PoolInit) (service : Service) : Prop where
  sound : service.pools.Sound init
  used : ∀ id, id ∈ service.used ↔ service.pools.Taken init id
  finished : ∀ id, some id ∈ service.pools.finished.queue → id ∈ service.used
  accepting : ∀ id, service.accepting = some id → id ∈ service.used

theorem Consistent.initial (init : PoolInit) : Service.initial.Consistent init where
  sound := Pools.Sound.start init
  used id := by simp [Service.initial, Pools.start, Pools.Taken]
  finished id member := by contradiction
  accepting id pending := by contradiction

section

variable {init : PoolInit} {service : Service} {id : SlotId} {after : Slot}

theorem handled_finished (running : service.pools.finished.aborted = false) :
    (service.handled id after).pools.finished.queue =
      service.pools.finished.queue ++ if (service.slots id).recycled < after.recycled then [some id] else [] := by
  simp only [handled]
  split <;> simp [LockedQueue.enqueue, running]

theorem handled_queued : (service.handled id after).queued =
    service.queued ++ if (service.slots id).enqueued < after.enqueued then [id] else [] := by
  simp only [handled]
  split <;> simp

theorem handled_elsewhere_other (running : service.pools.finished.aborted = false) {other : SlotId}
    (different : other ≠ id) : (service.handled id after).Elsewhere other ↔ service.Elsewhere other := by
  have slot : (service.handled id after).slots other = service.slots other := Function.update_of_ne different _ _
  have finished : some other ∈ (service.handled id after).pools.finished.queue ↔
      some other ∈ service.pools.finished.queue := by
    rw [handled_finished running, List.mem_append]
    split <;> simp [different]
  have queued : other ∈ (service.handled id after).queued ↔ other ∈ service.queued := by
    rw [handled_queued, List.mem_append]
    split <;> simp [different]
  rw [Elsewhere, Elsewhere, Serving, Serving, slot, finished, queued]
  rfl

theorem handled_elsewhere_self (running : service.pools.finished.aborted = false)
    (settled : (service.slots id).Settled after) : (service.handled id after).Elsewhere id := by
  have slot : (service.handled id after).slots id = after := Function.update_self _ _ _
  rcases settled with flying | enqueued | recycled
  · exact Or.inr (Or.inl (by rwa [slot]))
  · refine Or.inr (Or.inr (Or.inl ?_))
    rw [handled_queued, if_pos enqueued]
    exact List.mem_append_right _ List.mem_cons_self
  · refine Or.inl ?_
    rw [handled_finished running, if_pos recycled]
    exact List.mem_append_right _ List.mem_cons_self

theorem handled_elsewhere (running : service.pools.finished.aborted = false)
    (settled : 0 < (service.slots id).inFlight → (service.slots id).Settled after) {other : SlotId}
    (elsewhere : service.Elsewhere other) : (service.handled id after).Elsewhere other := by
  by_cases same : other = id
  · subst same
    rcases elsewhere with finished | flying | queued | processed
    · refine Or.inl ?_
      rw [handled_finished running]
      exact List.mem_append_left _ finished
    · exact handled_elsewhere_self running (settled flying)
    · refine Or.inr (Or.inr (Or.inl ?_))
      rw [handled_queued]
      exact List.mem_append_left _ queued
    · exact Or.inr (Or.inr (Or.inr processed))
  · exact (handled_elsewhere_other running same).mpr elsewhere

theorem Consistent.handled (consistent : service.Consistent init) (used : id ∈ service.used) :
    (service.handled id after).Consistent init := by
  have running := consistent.sound.running
  refine ⟨?_, ?_, ?_, consistent.accepting⟩
  · simp only [Service.handled]
    split
    · exact consistent.sound.enqueue id
    · exact consistent.sound
  · intro other
    rw [show (service.handled id after).used = service.used from rfl, consistent.used other]
    simp only [Service.handled]
    split <;> rfl
  · intro other member
    rw [handled_finished running, List.mem_append] at member
    rcases member with old | new
    · exact consistent.finished other old
    · split at new
      · obtain rfl : other = id := by simpa using new
        exact used
      · contradiction

theorem acceptConn_serving {next : Service} (taken : service.acceptConn init = some next) (other : SlotId) :
    next.Serving other ↔ service.Serving other := by
  obtain ⟨⟨pools, slot⟩, _, rfl⟩ := Option.map_eq_some_iff.mp taken
  have inFlight : ∀ slots : SlotId → Slot, slots = service.slots ∨
      slots = Function.update service.slots slot
        { service.slots slot with request := (service.slots slot).request.reset } →
      (slots other).inFlight = (service.slots other).inFlight := by
    intro slots shape
    rcases shape with rfl | rfl
    · rfl
    · by_cases same : other = slot
      · subst same
        rw [Function.update_self]
        rfl
      · rw [Function.update_of_ne same]
  simp only [Serving]
  rw [inFlight _ (by split <;> simp)]

/-- The slot was finished if it was ever handed out; the others stay where they
are. -/
theorem Consistent.accepts (consistent : service.Consistent init) {pools : Pools} {slot : SlotId}
    (accepts : Pools.Accepts init service.pools pools slot) :
    (∀ other, other ∈ slot :: service.used ↔ pools.Taken init other) ∧
      (slot ∈ service.used → some slot ∈ service.pools.finished.queue) ∧
      ∀ other, some other ∈ service.pools.finished.queue ↔
        some other ∈ pools.finished.queue ∨ other = slot ∧ some slot ∈ service.pools.finished.queue := by
  cases accepts with
  | finished head counters _ =>
      have present : some slot ∈ service.pools.finished.queue := head ▸ List.mem_cons_self
      refine ⟨fun other => ?_, fun _ => present, fun other => ?_⟩
      · rw [counters, ← consistent.used, List.mem_cons, or_iff_right_of_imp]
        intro same
        exact same ▸ consistent.finished slot present
      · rw [head, List.mem_cons, Option.some.injEq]
        simp [or_comm]
  | pooled empty still untaken counters _ =>
      refine ⟨fun other => ?_, fun used => absurd ((consistent.used slot).mp used) untaken, fun other => ?_⟩
      · rw [counters, ← consistent.used, List.mem_cons]
      · simp [empty, still]

theorem Consistent.acceptConn {next : Service} (consistent : service.Consistent init)
    (taken : service.acceptConn init = some next) :
    next.Consistent init ∧ (next.NoneLost ↔ ∀ other ∈ service.used, service.Elsewhere other) := by
  have serving := acceptConn_serving taken
  obtain ⟨⟨pools, slot⟩, accepted, rfl⟩ := Option.map_eq_some_iff.mp taken
  obtain ⟨sound, accepts⟩ := consistent.sound.acceptConn accepted
  obtain ⟨used, known, finished⟩ := consistent.accepts accepts
  refine ⟨⟨sound, used, fun other member => ?_, fun other pending => ?_⟩, ?_⟩
  · exact List.mem_cons_of_mem _ (consistent.finished other ((finished other).mpr (Or.inl member)))
  · exact Option.some.inj pending ▸ List.mem_cons_self
  · rw [noneLost_iff]
    constructor
    · intro kept other member
      rcases kept other (List.mem_cons_of_mem _ member) with pending | still | served
      · obtain rfl : slot = other := Option.some.inj pending
        exact Or.inl (known member)
      · exact Or.inl ((finished other).mpr (Or.inl still))
      · exact Or.inr ((serving other).mp served)
    · intro elsewhere other member
      rcases List.mem_cons.mp member with rfl | old
      · exact Or.inl rfl
      · rcases elsewhere other old with waiting | served
        · rcases (finished other).mp waiting with still | ⟨rfl, _⟩
          · exact Or.inr (Or.inl still)
          · exact Or.inl rfl
        · exact Or.inr (Or.inr ((serving other).mpr served))

theorem Consistent.exhausted {next : Service} (consistent : service.Consistent init)
    (taken : service.acceptConn init = some next) (kept : next.NoneLost)
    (grown : next.pools.pools ≠ service.pools.pools) {other : SlotId} (pool : other.pool < service.pools.pools)
    (index : other.index < init.requestPoolSize) : next.Serving other := by
  have serving := acceptConn_serving taken other
  have elsewhere := (consistent.acceptConn taken).2.mp kept
  obtain ⟨⟨pools, slot⟩, accepted, rfl⟩ := Option.map_eq_some_iff.mp taken
  cases (consistent.sound.acceptConn accepted).2 with
  | finished _ _ same => exact absurd same grown
  | pooled empty _ _ _ exhausted =>
      have used := (consistent.used other).mpr (exhausted grown other pool index)
      rcases elsewhere other used with finished | served
      · simp [empty] at finished
      · exact serving.mpr served

theorem Consistent.accepted (consistent : service.Consistent init) (pending : service.accepting = some id)
    (accepted : Accepted) : (service.accepted id accepted).Consistent init := by
  have used := consistent.accepting id pending
  cases accepted with
  | connection => exact consistent.handled used
  | error => exact consistent
  | readThrows => exact consistent.handled used

theorem Consistent.step {worker : Worker} {next : Service} {event : ServiceEvent}
    (consistent : service.Consistent init) (taken : service.step worker init event = some next) :
    next.Consistent init := by
  cases step_took taken with
  | start _ accepts => exact (consistent.acceptConn accepts).1
  | acceptConnAsync accepted pending accepts => exact ((consistent.accepted pending accepted).acceptConn accepts).1
  | completion _ used _ => exact consistent.handled used
  | getNext queued => exact ⟨consistent.sound, consistent.used, consistent.finished, consistent.accepting⟩
  | requestFinish held => exact ⟨consistent.sound, consistent.used, consistent.finished, consistent.accepting⟩

theorem NoneLost.settle (kept : service.NoneLost) (running : service.pools.finished.aborted = false)
    (pending : service.accepting = some id) (settled : (service.slots id).Settled after) :
    ∀ other ∈ service.used, (service.handled id after).Elsewhere other := by
  intro other used
  rcases noneLost_iff.mp kept other used with waiting | elsewhere
  · obtain rfl : id = other := Option.some.inj (pending.symm.trans waiting)
    exact handled_elsewhere_self running settled
  · exact handled_elsewhere running (fun _ => settled) elsewhere

theorem NoneLost.accepted_iff (kept : service.NoneLost) (consistent : service.Consistent init)
    (pending : service.accepting = some id) (accepted : Accepted) :
    (∀ other ∈ service.used, (service.accepted id accepted).Elsewhere other) ↔
      service.Kept (.acceptConnAsync accepted) := by
  have running := consistent.sound.running
  cases accepted with
  | connection =>
      refine iff_of_true (kept.settle running pending (Or.inl ?_)) trivial
      rw [Slot.readRequest_inFlight]
      exact Nat.succ_pos _
  | readThrows => exact iff_of_true (kept.settle running pending (Slot.recycle_settled _)) trivial
  | error =>
      constructor
      · intro elsewhere other waiting
        exact elsewhere other (consistent.accepting other waiting)
      · intro elsewhere other used
        rcases noneLost_iff.mp kept other used with waiting | held
        · exact elsewhere other waiting
        · exact held

theorem NoneLost.completion {worker : Worker} {event : Event} (kept : service.NoneLost)
    (running : service.pools.finished.aborted = false) (isCompletion : event.isCompletion = true)
    (taken : (service.slots id).step worker event = some after) : (service.handled id after).NoneLost := by
  rw [noneLost_iff] at kept ⊢
  intro other used
  refine (kept other used).imp_right fun elsewhere => ?_
  exact handled_elsewhere running (Slot.step_settled isCompletion taken) elsewhere

theorem NoneLost.getNext {rest : List SlotId} (kept : service.NoneLost) (queued : service.queued = id :: rest) :
    NoneLost { service with queued := rest, processing := id :: service.processing } := by
  intro other used unfinished
  refine (kept other used unfinished).imp_right fun serving => ?_
  rcases serving with flying | waiting | processed
  · exact Or.inl flying
  · rw [queued] at waiting
    rcases List.mem_cons.mp waiting with rfl | still
    · exact Or.inr (Or.inr List.mem_cons_self)
    · exact Or.inr (Or.inl still)
  · exact Or.inr (Or.inr (List.mem_cons_of_mem _ processed))

theorem NoneLost.requestFinish (kept : service.NoneLost) (reading : 0 < after.inFlight) :
    NoneLost { service with
      slots := Function.update service.slots id after
      processing := service.processing.erase id } := by
  intro other used unfinished
  refine (kept other used unfinished).imp_right fun serving => ?_
  by_cases same : other = id
  · subst same
    exact Or.inl (by simpa using reading)
  · rcases serving with flying | waiting | processed
    · exact Or.inl (by simpa [same] using flying)
    · exact Or.inr (Or.inl waiting)
    · exact Or.inr (Or.inr ((List.mem_erase_of_ne same).mpr processed))

theorem NoneLost.step_iff {worker : Worker} {next : Service} {event : ServiceEvent}
    (consistent : service.Consistent init) (kept : service.NoneLost)
    (taken : service.step worker init event = some next) : next.NoneLost ↔ service.Kept event := by
  cases step_took taken with
  | start unused accepts =>
      rw [(consistent.acceptConn accepts).2, unused]
      exact iff_of_true (fun _ member => by contradiction) trivial
  | acceptConnAsync accepted pending accepts =>
      rw [((consistent.accepted pending accepted).acceptConn accepts).2,
        ← kept.accepted_iff consistent pending accepted]
      cases accepted <;> rfl
  | completion isCompletion _ handles =>
      exact iff_of_true (kept.completion consistent.sound.running isCompletion handles) trivial
  | getNext queued => exact iff_of_true (kept.getNext queued) trivial
  | requestFinish _ =>
      refine iff_of_true (kept.requestFinish ?_) trivial
      rw [Slot.readRequest_inFlight]
      exact Nat.succ_pos _

end

theorem initial_noneLost : initial.NoneLost := by
  intro id used
  contradiction

theorem step_grown {worker : Worker} {init : PoolInit} {service next : Service} {event : ServiceEvent}
    (consistent : service.Consistent init) (taken : service.step worker init event = some next)
    (grown : next.pools.pools ≠ service.pools.pools) :
    ∃ before : Service, before.Consistent init ∧ before.pools.pools = service.pools.pools ∧
      before.acceptConn init = some next := by
  have handled (id : SlotId) (after : Slot) : (service.handled id after).pools.pools = service.pools.pools := by
    simp only [Service.handled]
    split <;> rfl
  cases step_took taken with
  | start _ accepts => exact ⟨service, consistent, rfl, accepts⟩
  | acceptConnAsync accepted pending accepts =>
      refine ⟨_, consistent.accepted pending accepted, ?_, accepts⟩
      cases accepted with
      | connection => exact handled _ _
      | error => rfl
      | readThrows => exact handled _ _
  | completion _ _ _ => exact absurd (handled _ _) grown
  | getNext _ => exact absurd rfl grown
  | requestFinish _ => exact absurd rfl grown

/-- No slot is lost in a run exactly if no accept fails for a slot that nothing
else has; and then a pool is made only when all slots there are serve
connections. -/
theorem slots_noneLost_iff (worker : Worker) (init : PoolInit) (events : List ServiceEvent) :
    (Always (step worker init) NoneLost initial events ↔ Along (step worker init) Kept initial events) ∧
      (Along (step worker init) Kept initial events → ∀ service event next,
        run (step worker init) initial events = some service → service.Kept event →
        service.step worker init event = some next → next.pools.pools ≠ service.pools.pools →
        ∀ slot : SlotId, slot.pool < service.pools.pools → slot.index < init.requestPoolSize →
          next.Serving slot) := by
  have exactly : Always (step worker init) NoneLost initial events ↔ Along (step worker init) Kept initial events :=
    always_iff_along_within (Consistent.initial init) initial_noneLost
      (fun consistent taken => consistent.step taken) NoneLost.step_iff
  refine ⟨exactly, ?_⟩
  intro along service event next reached kept taken grown slot pool index
  have consistent : service.Consistent init :=
    run_preserves (Consistent.initial init) (fun consistent taken => consistent.step taken) reached
  have noneLost : next.NoneLost := (NoneLost.step_iff consistent ((exactly.mpr along).last reached) taken).mpr kept
  obtain ⟨before, ready, same, accepted⟩ := step_grown consistent taken grown
  exact ready.exhausted accepted noneLost (same ▸ grown) (same ▸ pool) index

theorem slots_noneLost_broken :
    Always (step (Worker.unlimited 1) Lending.twoPools) NoneLost initial
      [.start, .acceptConnAsync .connection, .acceptConnAsync .connection, .completion ⟨0, 1⟩ .socketError,
        .completion ⟨0, 1⟩ .deliverBroken] :=
  (slots_noneLost_iff (Worker.unlimited 1) Lending.twoPools _).1.mpr (by decide +kernel)

def onePool : PoolInit := ⟨1, Nat.zero_lt_one, Nat.lt_trans Nat.one_lt_two Lending.twoPools_int⟩

/-- The error of the first accept is printed and its slot is gone: with pools of
one request, the next accept makes a new pool though nothing is in use. -/
theorem slots_lost_error :
    ∃ service, run (step (Worker.unlimited 1) onePool) initial [.start, .acceptConnAsync .error] = some service ∧
      service.pools.pools = 2 ∧ ¬ service.Elsewhere ⟨0, 0⟩ ∧ ¬ service.NoneLost := by
  refine ⟨_, (Option.some_get (by decide +kernel)).symm, by decide +kernel, by decide +kernel, ?_⟩
  intro kept
  rcases noneLost_iff.mp kept ⟨0, 0⟩ (by decide +kernel) with pending | elsewhere
  · exact absurd pending (by decide +kernel)
  · exact absurd elsewhere (by decide +kernel)

end Service

end Webapp.Workers

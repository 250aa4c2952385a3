import Webapp.Data.Runs
import Webapp.Workers.Request

namespace Webapp.Workers

open Webapp.Data

/-! The completions of one request slot.  `read_request` arms a timer wait and
a `null_buffers` read with the same handler; here they are counted, both while
they are armed and while their completions wait in the `io_service`.
-/

/-- What a slot is used for between two hand-offs: waiting for a connection,
receiving on one, or lost after a failed accept. -/
inductive Phase where
  | accepting
  | serving
  | dropped
deriving DecidableEq, Repr

structure Slot where
  request : Request
  phase : Phase
  opened : Bool
  -- armed operations
  waits : Nat
  reads : Nat
  -- queued completions: expired waits, readable and failed reads, cancelled ones
  expired : Nat
  readable : Nat
  broken : Nat
  cancelled : Nat
  -- hand-offs of the current message
  enqueued : Nat
  recycled : Nat

def Slot.fresh : Slot where
  request := Request.new
  phase := .accepting
  opened := false
  waits := 0
  reads := 0
  expired := 0
  readable := 0
  broken := 0
  cancelled := 0
  enqueued := 0
  recycled := 0

namespace Slot

/-- `timer.cancel()` reaches only waits whose completion is not queued yet. -/
def cancelTimer (slot : Slot) : Slot :=
  { slot with waits := 0, cancelled := slot.cancelled + slot.waits }

def abort (slot : Slot) : Slot :=
  { slot.cancelTimer with
    reads := 0
    cancelled := slot.cancelled + slot.waits + slot.reads
    opened := false }

def recycle (slot : Slot) : Slot := { slot.abort with recycled := slot.recycled + 1 }

/-- `read_request`; `timed` is `timeout_ms > 0`. -/
def readRequest (slot : Slot) (timed : Bool) : Slot :=
  let slot := if timed then { slot.cancelTimer with waits := 1 } else slot
  { slot with reads := slot.reads + 1 }

/-- `process_msgpack_request` on the slot.  Reading from a closed socket throws
whatever the size of the buffer. -/
def processMsgpackRequest (worker : Worker) (slot : Slot) : Completion → Slot
  | .success socket =>
      let slot := slot.cancelTimer
      if slot.opened then
        let result := slot.request.processMsgpackRequest worker (.success socket)
        let slot := { slot with request := result.1 }
        match result.2 with
        | .enqueued => { slot with enqueued := slot.enqueued + 1 }
        | .rearmed => slot.readRequest true
        | .recycled => slot.recycle
        | .ignored => slot
      else slot.recycle
  | .failed => slot.recycle
  | .aborted => slot

end Slot

inductive Accepted where
  | connection
  | error
  | readThrows
deriving DecidableEq, Repr

inductive Event where
  | timerExpires
  | socketReadable
  | socketError
  | deliverExpired (socket : SocketRead)
  | deliverReadable (socket : SocketRead)
  | deliverBroken
  | deliverCancelled
  | requestFinish
  | acceptConn
  | acceptConnAsync (accepted : Accepted)

/-- One event of the `io_service`, of the script (`Request_Finish`) or of the
acceptor.  Handlers run one at a time. -/
def Slot.step (worker : Worker) (slot : Slot) : Event → Option Slot
  | .timerExpires =>
      if 0 < slot.waits then some { slot with waits := slot.waits - 1, expired := slot.expired + 1 }
      else none
  | .socketReadable =>
      if 0 < slot.reads ∧ slot.opened then
        some { slot with reads := slot.reads - 1, readable := slot.readable + 1 }
      else none
  | .socketError =>
      if 0 < slot.reads then some { slot with reads := slot.reads - 1, broken := slot.broken + 1 }
      else none
  | .deliverExpired socket =>
      if 0 < slot.expired then
        some ({ slot with expired := slot.expired - 1 }.processMsgpackRequest worker (.success socket))
      else none
  | .deliverReadable socket =>
      if 0 < slot.readable then
        some ({ slot with readable := slot.readable - 1 }.processMsgpackRequest worker (.success socket))
      else none
  | .deliverBroken =>
      if 0 < slot.broken then
        some ({ slot with broken := slot.broken - 1 }.processMsgpackRequest worker .failed)
      else none
  | .deliverCancelled =>
      if 0 < slot.cancelled then
        some ({ slot with cancelled := slot.cancelled - 1 }.processMsgpackRequest worker .aborted)
      else none
  | .requestFinish =>
      -- the script owns the request: a new message starts on the same connection
      if 0 < slot.enqueued then
        some ({ slot with request := slot.request.reset, enqueued := 0, recycled := 0 }.readRequest false)
      else none
  | .acceptConn =>
      -- the pool owns the request: a new message starts with a new connection
      if 0 < slot.recycled then
        some { slot with request := slot.request.reset, phase := .accepting, enqueued := 0, recycled := 0 }
      else none
  | .acceptConnAsync accepted =>
      if slot.phase = .accepting then
        match accepted with
        | .connection => some ({ slot with phase := .serving, opened := true }.readRequest true)
        | .error => some { slot with phase := .dropped }
        | .readThrows => some { slot with phase := .serving }.recycle
      else none

/-- Never both hand-offs and never one twice; and once nothing of a message is
in flight any more it has been handed on. -/
structure Slot.HandedOnce (slot : Slot) : Prop where
  atMostOnce : slot.enqueued + slot.recycled ≤ 1
  atLeastOnce : slot.phase = .serving → slot.reads = 0 → slot.readable = 0 → slot.broken = 0 →
    slot.enqueued + slot.recycled = 1

/-- An expired wait is handled only while the read is still armed, and in a
call that throws: either the socket is closed or `read_some` fails. -/
def Slot.Timely (slot : Slot) : Event → Prop
  | .deliverExpired socket =>
      0 < slot.reads ∧ (slot.opened = true → readSome (sizeT slot.request.readSize) socket = none)
  | _ => True

instance (slot : Slot) : (event : Event) → Decidable (slot.Timely event)
  | .deliverExpired socket => inferInstanceAs (Decidable (0 < slot.reads ∧
      (slot.opened = true → readSome (sizeT slot.request.readSize) socket = none)))
  | .timerExpires | .socketReadable | .socketError | .deliverReadable _ | .deliverBroken
  | .deliverCancelled | .requestFinish | .acceptConn | .acceptConnAsync _ => isTrue trivial

namespace Slot

def tokens (slot : Slot) : Nat :=
  slot.reads + slot.readable + slot.broken + slot.enqueued + slot.recycled

/-- A connection that is served has one token: its read in flight is what
becomes its hand-off.  Between connections there is none. -/
def Conserved (slot : Slot) : Prop := slot.tokens = if slot.phase = .serving then 1 else 0

theorem fresh_conserved : fresh.Conserved := rfl

theorem Conserved.handedOnce {slot : Slot} (conserved : slot.Conserved) : slot.HandedOnce := by
  simp only [Conserved, tokens] at conserved
  constructor
  · split at conserved <;> omega
  · intro serving noRead notReadable notBroken
    rw [if_pos serving] at conserved
    omega

theorem Conserved.serving {slot : Slot} (conserved : slot.Conserved) (busy : 0 < slot.tokens) :
    slot.phase = .serving ∧ slot.tokens = 1 := by
  simp only [Conserved] at conserved
  split at conserved
  · exact ⟨by assumption, conserved⟩
  · omega

theorem recycle_tokens (slot : Slot) : slot.recycle.tokens + slot.reads = slot.tokens + 1 := by
  simp only [recycle, abort, cancelTimer, tokens]
  omega

theorem readRequest_tokens (slot : Slot) (timed : Bool) :
    (slot.readRequest timed).tokens = slot.tokens + 1 := by
  cases timed <;> simp only [readRequest, cancelTimer, tokens] <;> simp <;> omega

theorem processMsgpackRequest_phase (worker : Worker) (slot : Slot) (completion : Completion) :
    (slot.processMsgpackRequest worker completion).phase = slot.phase := by
  cases completion with
  | success socket =>
      simp only [processMsgpackRequest]
      split
      · split <;> rfl
      · rfl
  | aborted => rfl
  | failed => rfl

/-- With nothing else in flight, a completion that is not aborted is a hand-off
or arms one read. -/
theorem processMsgpackRequest_tokens (worker : Worker) {slot : Slot} (socket : SocketRead)
    (idle : slot.tokens = 0) :
    (slot.processMsgpackRequest worker (.success socket)).tokens = 1 := by
  have recycled (request : Request) : ({ slot.cancelTimer with request }).recycle.tokens = 1 := by
    have total := ({ slot.cancelTimer with request }).recycle_tokens
    simp only [tokens, cancelTimer] at total idle ⊢
    omega
  simp only [processMsgpackRequest]
  split
  · cases outcome : (slot.cancelTimer.request.processMsgpackRequest worker (.success socket)).2 with
    | enqueued =>
        simp only [tokens, cancelTimer] at idle ⊢
        omega
    | rearmed =>
        simp only [readRequest_tokens]
        simpa only [tokens, cancelTimer, Nat.add_eq_right] using idle
    | recycled => exact recycled _
    | ignored => exact absurd outcome (Request.processMsgpackRequest_acts worker _ socket)
  · exact recycled _

theorem processMsgpackRequest_recycles (worker : Worker) (slot : Slot) {socket : SocketRead}
    (throws : slot.opened = true → readSome (sizeT slot.request.readSize) socket = none) :
    slot.processMsgpackRequest worker (.success socket) = slot.cancelTimer.recycle := by
  simp only [processMsgpackRequest]
  split
  · rename_i opened
    have failed : slot.cancelTimer.request.processMsgpackRequest worker (.success socket) =
        (slot.cancelTimer.request, .recycled) := by
      simp only [Request.processMsgpackRequest, cancelTimer, throws opened]
    rw [failed]
  · rfl

theorem Conserved.of_same {slot next : Slot} (conserved : slot.Conserved) (phase : next.phase = slot.phase)
    (same : next.tokens = slot.tokens) : next.Conserved := by
  rw [Conserved, phase, same]
  exact conserved

theorem Conserved.step {worker : Worker} {slot next : Slot} {event : Event} (conserved : slot.Conserved)
    (timely : slot.Timely event) (taken : slot.step worker event = some next) : next.Conserved := by
  have serving := conserved.serving
  -- Delivering the only token leaves an idle slot to the handler.
  have deliver {left : Slot} {completion : Completion} (busy : 0 < slot.tokens)
      (phase : left.phase = slot.phase)
      (settled : (left.processMsgpackRequest worker completion).tokens = 1) :
      (left.processMsgpackRequest worker completion).Conserved := by
    rw [Conserved, processMsgpackRequest_phase, phase, if_pos (serving busy).1, settled]
  cases event with
  | timerExpires =>
      obtain ⟨_, rfl⟩ := guarded_step taken
      exact conserved
  | socketReadable =>
      obtain ⟨armed, rfl⟩ := guarded_step taken
      refine conserved.of_same rfl ?_
      simp only [tokens]
      omega
  | socketError =>
      obtain ⟨armed, rfl⟩ := guarded_step taken
      refine conserved.of_same rfl ?_
      simp only [tokens]
      omega
  | deliverExpired socket =>
      obtain ⟨_, rfl⟩ := guarded_step taken
      obtain ⟨armed, throws⟩ := timely
      have busy : 0 < slot.tokens := by simp only [tokens]; omega
      have total := ({ slot with expired := slot.expired - 1 } : Slot).cancelTimer.recycle_tokens
      have one := (serving busy).2
      refine deliver busy rfl ?_
      rw [processMsgpackRequest_recycles worker { slot with expired := slot.expired - 1 } throws]
      simp only [tokens, cancelTimer] at total one ⊢
      omega
  | deliverReadable socket =>
      obtain ⟨queued, rfl⟩ := guarded_step taken
      have busy : 0 < slot.tokens := by simp only [tokens]; omega
      have one := (serving busy).2
      refine deliver busy rfl (processMsgpackRequest_tokens worker socket ?_)
      simp only [tokens] at one ⊢
      omega
  | deliverBroken =>
      obtain ⟨queued, rfl⟩ := guarded_step taken
      have busy : 0 < slot.tokens := by simp only [tokens]; omega
      have one := (serving busy).2
      refine deliver busy rfl ?_
      have total := ({ slot with broken := slot.broken - 1 }).recycle_tokens
      simp only [tokens, processMsgpackRequest] at total one ⊢
      omega
  | deliverCancelled =>
      obtain ⟨_, rfl⟩ := guarded_step taken
      exact conserved
  | requestFinish =>
      obtain ⟨handed, rfl⟩ := guarded_step taken
      have busy : 0 < slot.tokens := by simp only [tokens]; omega
      obtain ⟨served, one⟩ := serving busy
      simp only [Conserved, readRequest, tokens, served] at one ⊢
      simp
      omega
  | acceptConn =>
      obtain ⟨handed, rfl⟩ := guarded_step taken
      have one := (serving (by simp only [tokens]; omega)).2
      simp only [Conserved, tokens, reduceCtorEq, if_false] at one ⊢
      omega
  | acceptConnAsync accepted =>
      simp only [Slot.step, Option.ite_none_right_eq_some] at taken
      obtain ⟨accepting, taken⟩ := taken
      have none : slot.tokens = 0 := by simpa only [Conserved, accepting, reduceCtorEq, if_false] using conserved
      cases accepted with
      | connection =>
          cases taken
          rw [Conserved, readRequest_tokens]
          simpa [readRequest, cancelTimer, tokens] using none
      | error =>
          cases taken
          simpa [Conserved, tokens] using none
      | readThrows =>
          cases taken
          have total := ({ slot with phase := .serving }).recycle_tokens
          simp only [Conserved, recycle, abort, cancelTimer, if_true, tokens] at total none ⊢
          omega

end Slot

theorem handOff_once (worker : Worker) (events : List Event) (slot : Slot)
    (timely : Along (Slot.step worker) Slot.Timely Slot.fresh events)
    (reached : run (Slot.step worker) Slot.fresh events = some slot) : slot.HandedOnce :=
  (run_invariant Slot.fresh_conserved (fun conserved timely taken => conserved.step timely taken)
    timely reached).handedOnce

theorem handOff_once_peer_silent :
    ((run (Slot.step (Worker.unlimited 1)) Slot.fresh
      [.acceptConnAsync .connection, .timerExpires, .deliverExpired .throws, .deliverCancelled]).get
        (by decide)).HandedOnce :=
  handOff_once (Worker.unlimited 1)
    [.acceptConnAsync .connection, .timerExpires, .deliverExpired .throws, .deliverCancelled] _
    (by decide) (Option.some_get _).symm

/-- The socket becomes readable while the expiry is queued.  The expiry reads
the whole message and enqueues it; the read, which is not cancelled, then finds
a complete message and enqueues it again.  A peer that has gone is recycled
twice in the same way. -/
theorem handOff_twice_expired :
    (∃ slot, run (Slot.step (Worker.unlimited 1)) Slot.fresh
      [.acceptConnAsync .connection, .timerExpires, .socketReadable,
        .deliverExpired (.bytes [0x01, 0x41]), .deliverReadable (.bytes [])] = some slot ∧
      slot.enqueued = 2 ∧ ¬ slot.HandedOnce) ∧
    ∃ slot, run (Slot.step (Worker.unlimited 1)) Slot.fresh
      [.acceptConnAsync .connection, .timerExpires, .socketReadable,
        .deliverExpired .throws, .deliverReadable .throws] = some slot ∧
      slot.recycled = 2 ∧ ¬ slot.HandedOnce := by
  refine ⟨⟨_, (Option.some_get (by decide)).symm, by decide, ?_⟩,
    ⟨_, (Option.some_get (by decide)).symm, by decide, ?_⟩⟩
  · intro once
    exact absurd once.atMostOnce (by decide)
  · intro once
    exact absurd once.atMostOnce (by decide)

end Webapp.Workers

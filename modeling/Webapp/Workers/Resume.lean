import Webapp.Data.Runs
import Webapp.Workers.SocketRead

namespace Webapp.Workers

open Webapp.Data

/-! The completions of one `Socket_Read`.  `start_read` and `read_handler` arm a
timer wait and a `null_buffers` read with the same handler, which resumes the
request that waits for the bytes.
-/

structure PendingRead where
  reading : Reading
  opened : Bool
  -- armed operations
  waits : Nat
  reads : Nat
  -- queued completions: expired waits, readable and failed reads, cancelled ones
  expired : Nat
  readable : Nat
  broken : Nat
  cancelled : Nat
  -- how often the request was resumed
  enqueued : Nat

namespace PendingRead

/-- What `start_read` leaves behind.  The socket may already be closed: arming a
read on it only makes that read fail. -/
def start (reading : Reading) (opened : Bool) : PendingRead where
  reading := reading
  opened := opened
  waits := 1
  reads := 1
  expired := 0
  readable := 0
  broken := 0
  cancelled := 0
  enqueued := 0

/-- `timer.cancel()` reaches only waits whose completion is not queued yet. -/
def cancelTimer (pending : PendingRead) : PendingRead :=
  { pending with waits := 0, cancelled := pending.cancelled + pending.waits }

def abort (pending : PendingRead) : PendingRead :=
  { pending.cancelTimer with
    reads := 0
    cancelled := pending.cancelled + pending.waits + pending.reads
    opened := false }

def fail (pending : PendingRead) : PendingRead := { pending.abort with reading := pending.reading.fail }

/-- `expires_from_now` cancels the wait that is still armed. -/
def rearm (pending : PendingRead) : PendingRead :=
  { pending.cancelTimer with waits := 1, reads := pending.reads + 1 }

/-- `read_handler`.  Reading from a closed socket throws whatever the size of the
buffer. -/
def readHandler (pending : PendingRead) : Completion → PendingRead
  | .success socket =>
      let pending := pending.cancelTimer
      if pending.opened then
        let result := pending.reading.readHandler (.success socket)
        match result.2 with
        | .enqueued => { pending with reading := result.1, enqueued := pending.enqueued + 1 }
        | .rearmed => { pending with reading := result.1 }.rearm
        | .failed => pending.fail
        | .ignored => pending
      else pending.fail
  | .failed => pending.fail
  | .aborted => pending

end PendingRead

inductive ReadEvent where
  | timerExpires
  | socketReadable
  | socketError
  | deliverExpired (socket : SocketRead)
  | deliverReadable (socket : SocketRead)
  | deliverBroken
  | deliverCancelled

namespace PendingRead

def step (pending : PendingRead) : ReadEvent → Option PendingRead
  | .timerExpires =>
      if 0 < pending.waits then
        some { pending with waits := pending.waits - 1, expired := pending.expired + 1 }
      else none
  | .socketReadable =>
      if 0 < pending.reads ∧ pending.opened then
        some { pending with reads := pending.reads - 1, readable := pending.readable + 1 }
      else none
  | .socketError =>
      if 0 < pending.reads then
        some { pending with reads := pending.reads - 1, broken := pending.broken + 1 }
      else none
  | .deliverExpired socket =>
      if 0 < pending.expired then
        some ({ pending with expired := pending.expired - 1 }.readHandler (.success socket))
      else none
  | .deliverReadable socket =>
      if 0 < pending.readable then
        some ({ pending with readable := pending.readable - 1 }.readHandler (.success socket))
      else none
  | .deliverBroken =>
      if 0 < pending.broken then
        some ({ pending with broken := pending.broken - 1 }.readHandler .failed)
      else none
  | .deliverCancelled =>
      if 0 < pending.cancelled then
        some ({ pending with cancelled := pending.cancelled - 1 }.readHandler .aborted)
      else none

def Quiet (pending : PendingRead) : Prop :=
  pending.waits = 0 ∧ pending.reads = 0 ∧ pending.expired = 0 ∧ pending.readable = 0 ∧
    pending.broken = 0 ∧ pending.cancelled = 0

instance (pending : PendingRead) : Decidable pending.Quiet :=
  inferInstanceAs (Decidable (pending.waits = 0 ∧ pending.reads = 0 ∧ pending.expired = 0 ∧
    pending.readable = 0 ∧ pending.broken = 0 ∧ pending.cancelled = 0))

/-- Neither an expiry nor an error is handled, and `read_some` does not throw. -/
def Undisturbed (pending : PendingRead) : ReadEvent → Prop
  | .deliverExpired _ | .deliverBroken => False
  | .deliverReadable socket => (readSome (sizeT pending.reading.readSize) socket).isSome = true
  | _ => True

instance (pending : PendingRead) : (event : ReadEvent) → Decidable (pending.Undisturbed event)
  | .deliverReadable socket =>
      inferInstanceAs (Decidable ((readSome (sizeT pending.reading.readSize) socket).isSome = true))
  | .deliverExpired _ | .deliverBroken => isFalse id
  | .timerExpires | .socketReadable | .socketError | .deliverCancelled => isTrue trivial

/-- The read in flight is what becomes the resumption; only an open socket is
found readable. -/
structure OneRead (pending : PendingRead) : Prop where
  token : pending.reads + pending.readable + pending.broken + pending.enqueued = 1
  opened : 0 < pending.readable → pending.opened = true

theorem OneRead.start (reading : Reading) (opened : Bool) : (start reading opened).OneRead :=
  ⟨rfl, fun none => absurd none (Nat.lt_irrefl 0)⟩

theorem OneRead.readHandler {pending : PendingRead} {socket : SocketRead}
    (idle : pending.reads + pending.readable + pending.broken + pending.enqueued = 0)
    (opened : pending.opened = true)
    (reads : (readSome (sizeT pending.reading.readSize) socket).isSome = true) :
    (pending.readHandler (.success socket)).OneRead := by
  obtain ⟨chunk, chunkIs⟩ := Option.isSome_iff_exists.mp reads
  simp only [PendingRead.readHandler, cancelTimer, opened, if_true, Reading.readHandler, chunkIs]
  by_cases complete : ((pending.reading.receive chunk).ctr : Int) = (pending.reading.receive chunk).len
  · simp only [if_pos complete]
    exact ⟨by simp only; omega, fun _ => rfl⟩
  · simp only [if_neg complete]
    exact ⟨by simp only [rearm, cancelTimer]; omega, fun _ => rfl⟩

theorem OneRead.step {pending next : PendingRead} {event : ReadEvent} (one : pending.OneRead)
    (undisturbed : pending.Undisturbed event) (taken : pending.step event = some next) : next.OneRead := by
  have token := one.token
  have opened := one.opened
  cases event with
  | timerExpires =>
      obtain ⟨_, rfl⟩ := guarded_step taken
      exact ⟨token, opened⟩
  | socketReadable =>
      obtain ⟨armed, rfl⟩ := guarded_step taken
      exact ⟨by simp only; omega, fun _ => armed.2⟩
  | socketError =>
      obtain ⟨armed, rfl⟩ := guarded_step taken
      exact ⟨by simp only; omega, opened⟩
  | deliverExpired socket => exact undisturbed.elim
  | deliverReadable socket =>
      obtain ⟨queued, rfl⟩ := guarded_step taken
      exact OneRead.readHandler (by simp only; omega) (opened queued) undisturbed
  | deliverBroken => exact undisturbed.elim
  | deliverCancelled =>
      obtain ⟨_, rfl⟩ := guarded_step taken
      exact ⟨token, opened⟩

end PendingRead

/-- In every run in which only readiness is handled and `read_some` returns, the
request has been resumed once when nothing of the read is outstanding. -/
theorem socketRead_resumes_once (reading : Reading) (opened : Bool) (events : List ReadEvent) (pending : PendingRead)
    (undisturbed : Along PendingRead.step PendingRead.Undisturbed (PendingRead.start reading opened) events)
    (reached : run PendingRead.step (PendingRead.start reading opened) events = some pending)
    (quiet : pending.Quiet) : pending.enqueued = 1 := by
  have one : pending.OneRead := run_invariant (PendingRead.OneRead.start reading opened)
    (fun one undisturbed taken => one.step undisturbed taken) undisturbed reached
  have token := one.token
  obtain ⟨_, noRead, _, notReadable, notBroken, _⟩ := quiet
  omega

theorem socketRead_resumes_once_readable :
    ((run PendingRead.step (PendingRead.start ⟨fun _ => 0, 2, 0⟩ true)
      [.socketReadable, .deliverReadable (.bytes [0x61, 0x62]), .deliverCancelled]).get (by decide)).enqueued = 1 :=
  socketRead_resumes_once ⟨fun _ => 0, 2, 0⟩ true
    [.socketReadable, .deliverReadable (.bytes [0x61, 0x62]), .deliverCancelled] _ (by decide)
    (Option.some_get _).symm (by decide)

/-- A read that fails leaves the request suspended for good, whether the error is
that of the completion or thrown by `read_some`.  And an expiry that reads the
last byte leaves the read armed, which then resumes the request again. -/
theorem socketRead_resumes_never_or_twice :
    (∃ pending, run PendingRead.step (PendingRead.start ⟨fun _ => 0, 1, 0⟩ true)
      [.socketError, .deliverBroken, .deliverCancelled] = some pending ∧
      pending.Quiet ∧ pending.reading.len = 0 ∧ pending.enqueued = 0) ∧
    (∃ pending, run PendingRead.step (PendingRead.start ⟨fun _ => 0, 1, 0⟩ true)
      [.socketReadable, .deliverReadable .throws, .deliverCancelled] = some pending ∧
      pending.Quiet ∧ pending.reading.len = 0 ∧ pending.enqueued = 0) ∧
    ∃ pending, run PendingRead.step (PendingRead.start ⟨fun _ => 0, 1, 0⟩ true)
      [.timerExpires, .socketReadable, .deliverExpired (.bytes [0x61]), .deliverReadable (.bytes [])] = some pending ∧
      pending.Quiet ∧ pending.enqueued = 2 :=
  ⟨⟨_, (Option.some_get (by decide)).symm, by decide, by decide, by decide⟩,
    ⟨_, (Option.some_get (by decide)).symm, by decide, by decide, by decide⟩,
    ⟨_, (Option.some_get (by decide)).symm, by decide, by decide⟩⟩

end Webapp.Workers

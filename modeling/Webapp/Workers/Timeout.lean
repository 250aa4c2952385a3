import Webapp.Workers.HandOff
import Webapp.Workers.Resume

namespace Webapp.Workers

open Webapp.Data

/-! An expired wait in the two receive loops.  `steady_timer` reports the expiry
with a success code, to the handler that the readiness of the socket is reported
to.
-/

/-- `read_some` throws: the socket is closed, or it is broken or at end of file
and there is a byte to ask for. -/
def ReadThrows (opened : Bool) (size : Nat) (socket : SocketRead) : Prop :=
  opened = false ∨ socket = .throws ∧ size ≠ 0

theorem readThrows_iff (opened : Bool) (size : Nat) (socket : SocketRead) :
    ReadThrows opened size socket ↔ (opened = true → readSome size socket = none) := by
  cases opened with
  | false => simp [ReadThrows]
  | true => cases socket <;> simp [ReadThrows, readSome]

/-- A request whose length could not be served is not what it was before. -/
theorem Request.process_recycled_ne {worker : Worker} {request : Request} {chunk : List UInt8}
    (recycled : (request.process worker chunk).2 = .recycled) : (request.process worker chunk).1 ≠ request := by
  simp only [Request.process] at recycled ⊢
  have parses := (request.receive chunk).parseLength_parses worker
  cases parsed : (request.receive chunk).parseLength worker with
  | ok located =>
      simp only [parsed] at recycled
      split at recycled <;> cases recycled
  | error refused =>
      rw [parsed] at parses
      cases parses with
      | @refused u64 offset unknown object wide =>
          have bounds := MsgPack.unpackNext_positiveInteger object
          intro same
          have kept := congrArg Request.len same
          rw [receive_len] at unknown
          simp only [unknown] at kept
          simp only [kept, sizeT] at wide
          omega

namespace Slot

/-- The message has come to an end without being complete: as long as the request
is not taken for a new connection, nothing more of it is read. -/
def GivesUp (worker : Worker) (slot next : Slot) : Prop :=
  ∀ events reached, Event.acceptConn ∉ events → run (Slot.step worker) next events = some reached →
    reached.opened = false ∧ 0 < reached.recycled ∧ reached.request = slot.request

structure Abandoned (request : Request) (slot : Slot) : Prop where
  phase : slot.phase = .serving
  opened : slot.opened = false
  enqueued : slot.enqueued = 0
  recycled : 0 < slot.recycled
  request : slot.request = request

section

variable {worker : Worker} {slot next : Slot} {request : Request}

theorem Abandoned.recycle (phase : slot.phase = .serving) (enqueued : slot.enqueued = 0) :
    slot.recycle.Abandoned slot.request :=
  ⟨phase, rfl, enqueued, Nat.succ_pos _, rfl⟩

theorem Abandoned.processMsgpackRequest (abandoned : slot.Abandoned request) (worker : Worker)
    (completion : Completion) : (slot.processMsgpackRequest worker completion).Abandoned request := by
  obtain ⟨phase, opened, enqueued, recycled, rfl⟩ := abandoned
  cases completion with
  | success socket =>
      rw [processMsgpackRequest_recycles worker slot (by simp [opened])]
      exact Abandoned.recycle phase enqueued
  | failed => exact Abandoned.recycle phase enqueued
  | aborted => exact ⟨phase, opened, enqueued, recycled, rfl⟩

theorem Abandoned.step {event : Event} (abandoned : slot.Abandoned request) (kept : event ≠ .acceptConn)
    (taken : slot.step worker event = some next) : next.Abandoned request := by
  obtain ⟨phase, opened, enqueued, recycled, rfl⟩ := abandoned
  cases event with
  | timerExpires =>
      obtain ⟨_, rfl⟩ := guarded_step taken
      exact ⟨phase, opened, enqueued, recycled, rfl⟩
  | socketReadable =>
      obtain ⟨armed, rfl⟩ := guarded_step taken
      simp [opened] at armed
  | socketError =>
      obtain ⟨_, rfl⟩ := guarded_step taken
      exact ⟨phase, opened, enqueued, recycled, rfl⟩
  | deliverExpired socket =>
      obtain ⟨_, rfl⟩ := guarded_step taken
      apply Abandoned.processMsgpackRequest
      exact ⟨phase, opened, enqueued, recycled, rfl⟩
  | deliverReadable socket =>
      obtain ⟨_, rfl⟩ := guarded_step taken
      apply Abandoned.processMsgpackRequest
      exact ⟨phase, opened, enqueued, recycled, rfl⟩
  | deliverBroken =>
      obtain ⟨_, rfl⟩ := guarded_step taken
      apply Abandoned.processMsgpackRequest
      exact ⟨phase, opened, enqueued, recycled, rfl⟩
  | deliverCancelled =>
      obtain ⟨_, rfl⟩ := guarded_step taken
      apply Abandoned.processMsgpackRequest
      exact ⟨phase, opened, enqueued, recycled, rfl⟩
  | requestFinish =>
      obtain ⟨handed, _⟩ := guarded_step taken
      omega
  | acceptConn => exact absurd rfl kept
  | acceptConnAsync accepted => simp [Slot.step, phase] at taken

theorem Abandoned.givesUp (abandoned : next.Abandoned slot.request) : slot.GivesUp worker next := by
  intro events reached kept ends
  have along : Along (Slot.step worker) (fun _ event => event ≠ .acceptConn) next events :=
    Along.of_events fun event member same => kept (same ▸ member)
  have still : reached.Abandoned slot.request :=
    run_invariant abandoned (fun abandoned kept taken => abandoned.step kept taken) along ends
  exact ⟨still.opened, still.recycled, still.request⟩

theorem processMsgpackRequest_givesUp_iff (worker : Worker) (slot : Slot) (phase : slot.phase = .serving)
    (enqueued : slot.enqueued = 0) (socket : SocketRead) :
    slot.GivesUp worker (slot.processMsgpackRequest worker (.success socket)) ↔
      ReadThrows slot.opened (sizeT slot.request.readSize) socket := by
  rw [readThrows_iff]
  constructor
  · intro givesUp opened
    by_contra reads
    obtain ⟨chunk, chunkIs⟩ := Option.ne_none_iff_exists'.mp reads
    obtain ⟨closed, _, same⟩ := givesUp [] _ (by simp) rfl
    simp only [processMsgpackRequest, cancelTimer, opened, if_true, Request.processMsgpackRequest, chunkIs] at closed same
    cases outcome : (slot.request.process worker chunk).2 with
    | enqueued => simp [outcome] at closed
    | rearmed => simp [outcome, readRequest, cancelTimer] at closed
    | ignored => simp [outcome] at closed
    | recycled =>
        simp only [outcome] at same
        exact Request.process_recycled_ne outcome same
  · intro throws
    apply Abandoned.givesUp
    rw [processMsgpackRequest_recycles worker slot throws]
    exact Abandoned.recycle phase enqueued

end

end Slot

namespace PendingRead

/-- The read has failed for good: its output is empty and nothing more is stored
in it. -/
def GivesUp (pending next : PendingRead) : Prop :=
  ∀ events reached, run PendingRead.step next events = some reached →
    reached.opened = false ∧ reached.reading = pending.reading.fail

structure Abandoned (reading : Reading) (pending : PendingRead) : Prop where
  opened : pending.opened = false
  reading : pending.reading = reading.fail

section

variable {pending next : PendingRead} {reading : Reading}

theorem Abandoned.fail (same : pending.reading.fail = reading.fail) : pending.fail.Abandoned reading :=
  ⟨rfl, same⟩

theorem readHandler_fails {socket : SocketRead}
    (throws : pending.opened = true → readSome (sizeT pending.reading.readSize) socket = none) :
    pending.readHandler (.success socket) = pending.cancelTimer.fail := by
  simp only [PendingRead.readHandler]
  split
  · rename_i opened
    have failed : pending.cancelTimer.reading.readHandler (.success socket) = (pending.reading.fail, .failed) := by
      simp only [Reading.readHandler, cancelTimer, throws opened]
    rw [failed]
  · rfl

theorem Abandoned.readHandler (abandoned : pending.Abandoned reading) (completion : Completion) :
    (pending.readHandler completion).Abandoned reading := by
  obtain ⟨opened, failed⟩ := abandoned
  have again : pending.reading.fail = reading.fail := by
    rw [failed]
    rfl
  cases completion with
  | success socket =>
      rw [readHandler_fails (by simp [opened])]
      exact Abandoned.fail again
  | failed => exact Abandoned.fail again
  | aborted => exact ⟨opened, failed⟩

theorem Abandoned.step {event : ReadEvent} (abandoned : pending.Abandoned reading)
    (taken : pending.step event = some next) : next.Abandoned reading := by
  obtain ⟨opened, failed⟩ := abandoned
  cases event with
  | timerExpires =>
      obtain ⟨_, rfl⟩ := guarded_step taken
      exact ⟨opened, failed⟩
  | socketReadable =>
      obtain ⟨armed, rfl⟩ := guarded_step taken
      simp [opened] at armed
  | socketError =>
      obtain ⟨_, rfl⟩ := guarded_step taken
      exact ⟨opened, failed⟩
  | deliverExpired socket =>
      obtain ⟨_, rfl⟩ := guarded_step taken
      apply Abandoned.readHandler
      exact ⟨opened, failed⟩
  | deliverReadable socket =>
      obtain ⟨_, rfl⟩ := guarded_step taken
      apply Abandoned.readHandler
      exact ⟨opened, failed⟩
  | deliverBroken =>
      obtain ⟨_, rfl⟩ := guarded_step taken
      apply Abandoned.readHandler
      exact ⟨opened, failed⟩
  | deliverCancelled =>
      obtain ⟨_, rfl⟩ := guarded_step taken
      apply Abandoned.readHandler
      exact ⟨opened, failed⟩

theorem Abandoned.givesUp (abandoned : next.Abandoned pending.reading) : pending.GivesUp next := by
  intro events reached ends
  have still : reached.Abandoned pending.reading :=
    run_preserves abandoned (fun abandoned taken => abandoned.step taken) ends
  exact ⟨still.opened, still.reading⟩

theorem readHandler_givesUp_iff (pending : PendingRead) (socket : SocketRead) :
    pending.GivesUp (pending.readHandler (.success socket)) ↔
      ReadThrows pending.opened (sizeT pending.reading.readSize) socket := by
  rw [readThrows_iff]
  constructor
  · intro givesUp opened
    by_contra reads
    obtain ⟨chunk, chunkIs⟩ := Option.ne_none_iff_exists'.mp reads
    obtain ⟨closed, _⟩ := givesUp [] _ rfl
    simp only [PendingRead.readHandler, cancelTimer, opened, if_true, Reading.readHandler, chunkIs] at closed
    by_cases complete : ((pending.reading.receive chunk).ctr : Int) = (pending.reading.receive chunk).len
    · simp [complete] at closed
    · simp [complete, rearm, cancelTimer] at closed
  · intro throws
    apply Abandoned.givesUp
    rw [readHandler_fails throws]
    exact Abandoned.fail rfl

end

end PendingRead

/-- Handling an expired wait ends an incomplete message exactly if `read_some`
happens to throw. -/
theorem readTimeout_closes_iff (socket : SocketRead) :
    (∀ (worker : Worker) (slot next : Slot), slot.phase = .serving → slot.enqueued = 0 →
      slot.step worker (.deliverExpired socket) = some next →
      (slot.GivesUp worker next ↔ ReadThrows slot.opened (sizeT slot.request.readSize) socket)) ∧
    (∀ pending next : PendingRead, pending.step (.deliverExpired socket) = some next →
      (pending.GivesUp next ↔ ReadThrows pending.opened (sizeT pending.reading.readSize) socket)) := by
  constructor
  · intro worker slot next phase incomplete taken
    obtain ⟨_, rfl⟩ := guarded_step taken
    exact Slot.processMsgpackRequest_givesUp_iff worker { slot with expired := slot.expired - 1 } phase incomplete socket
  · intro pending next taken
    obtain ⟨_, rfl⟩ := guarded_step taken
    exact PendingRead.readHandler_givesUp_iff { pending with expired := pending.expired - 1 } socket

/-- A connection on which nothing has arrived when its time is up. -/
def silentSlot : Slot :=
  (run (Slot.step (Worker.unlimited 1)) Slot.fresh [.acceptConnAsync .connection, .timerExpires]).get (by decide)

def silentRead : PendingRead :=
  (run PendingRead.step (PendingRead.start ⟨fun _ => 0, 2, 0⟩ true) [.timerExpires]).get (by decide)

theorem readTimeout_closes_peer_gone :
    silentSlot.GivesUp (Worker.unlimited 1)
      ((silentSlot.step (Worker.unlimited 1) (.deliverExpired .throws)).get (by decide)) ∧
    silentRead.GivesUp ((silentRead.step (.deliverExpired .throws)).get (by decide)) := by
  obtain ⟨header, read⟩ := readTimeout_closes_iff .throws
  exact ⟨(header (Worker.unlimited 1) silentSlot _ rfl rfl (Option.some_get (by decide)).symm).mpr (Or.inr ⟨rfl, by decide⟩),
    (read silentRead _ (Option.some_get (by decide)).symm).mpr (Or.inr ⟨rfl, by decide⟩)⟩

/-- The peer has sent one byte when the time is up: it is read, and both loops
wait again on the open socket. -/
theorem readTimeout_reads_on :
    (∃ next, silentSlot.step (Worker.unlimited 1) (.deliverExpired (.bytes [0x05])) = some next ∧
      next.opened = true ∧ next.recycled = 0 ∧ next.request.len = 5 ∧ next.reads = 2 ∧ next.waits = 1) ∧
    ∃ next, silentRead.step (.deliverExpired (.bytes [0x61])) = some next ∧
      next.opened = true ∧ next.reading.len = 2 ∧ next.reading.ctr = 1 ∧ next.reads = 2 ∧ next.waits = 1 :=
  ⟨⟨_, (Option.some_get (by decide)).symm, by decide, by decide, by decide, by decide, by decide⟩,
    ⟨_, (Option.some_get (by decide)).symm, by decide, by decide, by decide, by decide, by decide⟩⟩

end Webapp.Workers

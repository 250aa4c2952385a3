import Webapp.Protocol.KeepAlive
import Webapp.Data.Runs

namespace Webapp.Protocol

open Webapp.Data Webapp.MsgPack Webapp.Nginx Webapp.Workers

/-! A connection from its first byte to its last.  Both handlers of a request arm a read
and, except after `Request_Finish`, a wait on the one timer of the socket; their
completions queue up in the `io_service`, and the request in the queue of the worker,
from which the script takes it.  As long as no wait expires there is never more than
one of them, and the calls come as in `Serving`.
-/

/-- The handler an operation was started with.  `read_handler` is bound to the output
of the `start_read` it belongs to. -/
inductive Handler where
  | processMsgpackRequest
  | readHandler (output : Nat)
deriving DecidableEq, Repr

structure Link where
  request : Workers.Request
  outputs : List Reading
  -- the output that the script waits for
  waiting : Option Nat
  opened : Bool
  unread : List UInt8
  -- armed operations
  waits : List Handler
  reads : List Handler
  -- queued completions: without an error, with one, and cancelled ones
  ready : List Handler
  broken : List Handler
  cancelled : Nat
  -- how often the request is in the queue of the worker
  queued : Nat
  served : List (List UInt8 × List UInt8)

inductive LinkEvent where
  | timerExpires
  | socketReadable
  /-- An error or the end of the stream, which both handlers meet with `abort`. -/
  | socketError
  /-- The next completion without an error, whose `read_some` finds `count` bytes. -/
  | deliver (count : Nat)
  | deliverBroken
  | deliverCancelled
  /-- The script takes the request from the queue. -/
  | getNext
deriving DecidableEq, Repr

namespace Link

/-- `timer.cancel()` reaches only waits whose completion is not queued yet. -/
def cancelTimer (link : Link) : Link := { link with waits := [], cancelled := link.cancelled + link.waits.length }

def abort (link : Link) : Link :=
  { link with
    opened := false
    waits := []
    reads := []
    cancelled := link.cancelled + link.waits.length + link.reads.length }

/-- `expires_from_now` cancels the wait that is still armed. -/
def asyncWait (link : Link) (handler : Handler) : Link := { link.cancelTimer with waits := [handler] }

def asyncReadSome (link : Link) (handler : Handler) : Link :=
  if link.opened then { link with reads := link.reads ++ [handler] } else { link with broken := link.broken ++ [handler] }

/-- `read_request`; `timed` is `timeout_ms > 0`. -/
def readRequest (link : Link) (timed : Bool) : Link :=
  (if timed then link.asyncWait .processMsgpackRequest else link).asyncReadSome .processMsgpackRequest

def accept (request : Workers.Request) (stream : List UInt8) : Link :=
  readRequest
    { request := request
      outputs := []
      waiting := none
      opened := true
      unread := stream
      waits := []
      reads := []
      ready := []
      broken := []
      cancelled := 0
      queued := 0
      served := [] } true

/-- `enqueue(r)` -/
def enqueue (link : Link) : Link := { link with queued := link.queued + 1 }

/-- `Request_Finish`, with the header and the body that the script has got. -/
def finish (link : Link) (body : List UInt8) : Link :=
  { link with
    request := link.request.reset
    waiting := none
    served := link.served ++ [(header link.request, body)] }.readRequest false

/-- What `start_read` and `read_handler` arm. -/
def awaitRead (link : Link) (output : Nat) : Link :=
  (link.asyncWait (.readHandler output)).asyncReadSome (.readHandler output)

def readHandler (link : Link) (output : Nat) (count : Nat) : Link :=
  let link := link.cancelTimer
  match link.outputs[output]? with
  | some reading =>
      if link.opened then
        let result := (Transfer.mk { reading with ctr := link.request.ctr } link.unread).readable count
        let link := { link with
          request := { link.request with ctr := result.1.reading.ctr }
          unread := result.1.unread
          outputs := link.outputs.set output result.1.reading }
        match result.2 with
        | .enqueued => link.enqueue
        | .rearmed => link.awaitRead output
        | .failed => link.abort
        | .ignored => link
      else { link.abort with outputs := link.outputs.set output reading.fail }
  | none => link

/-- A completion with an error.  `read_handler` leaves an empty output, and nothing
resumes the request. -/
def failed (link : Link) : Handler → Link
  | .processMsgpackRequest => link.abort
  | .readHandler output => { link.abort with outputs := link.outputs.modify output Reading.fail }

section

variable (worker : Worker) (script : List UInt8 → Nat) (memory : Memory UInt8)

def processMsgpackRequest (link : Link) (count : Nat) : Link :=
  let link := link.cancelTimer
  if link.opened then
    let result := (Connection.mk link.request link.unread).step worker (.readable count)
    let link := { link with request := result.1.request, unread := result.1.unread }
    match result.2 with
    | .enqueued => link.enqueue
    | .rearmed => link.readRequest true
    | .recycled => link.abort
    | .ignored => link
  else link.abort

/-- A new request: the script reads as many bytes as it takes the header to announce. -/
def resume (link : Link) : Link :=
  let bytes := script (header link.request)
  if bytes = 0 then link.finish []
  else match startRead memory bytes with
    | some reading =>
        { link with
          request := { link.request with ctr := reading.ctr }
          outputs := link.outputs ++ [reading]
          waiting := some link.outputs.length }.awaitRead link.outputs.length
    | none => { link with opened := false }

def body (link : Link) (output : Nat) : List UInt8 :=
  (link.outputs[output]?).elim [] fun reading => reading.data.window 0 reading.len.toNat

/-- The handlers run one at a time, in the order of the queue.  A `read_some` that
finds nothing blocks. -/
def step (link : Link) : LinkEvent → Option Link
  | .timerExpires =>
      match link.waits with
      | handler :: waits => some { link with waits := waits, ready := link.ready ++ [handler] }
      | [] => none
  | .socketReadable =>
      match link.reads with
      | handler :: reads =>
          if link.unread ≠ [] then some { link with reads := reads, ready := link.ready ++ [handler] } else none
      | [] => none
  | .socketError =>
      match link.reads with
      | handler :: reads => some { link with reads := reads, broken := link.broken ++ [handler] }
      | [] => none
  | .deliver count =>
      if 0 < count ∧ count ≤ link.unread.length then
        match link.ready with
        | .processMsgpackRequest :: ready => some ({ link with ready := ready }.processMsgpackRequest worker count)
        | .readHandler output :: ready => some ({ link with ready := ready }.readHandler output count)
        | [] => none
      else none
  | .deliverBroken =>
      match link.broken with
      | handler :: broken => some ({ link with broken := broken }.failed handler)
      | [] => none
  | .deliverCancelled => if 0 < link.cancelled then some { link with cancelled := link.cancelled - 1 } else none
  | .getNext =>
      if 0 < link.queued then
        let link := { link with queued := link.queued - 1 }
        match link.waiting with
        | none => some (link.resume script memory)
        | some output => some (link.finish (link.body output))
      else none

end

/-- The handler that the request waits for. -/
def handler (link : Link) : Handler :=
  match link.waiting with
  | none => .processMsgpackRequest
  | some output => .readHandler output

def stage (link : Link) : Stage :=
  if link.opened then
    match link.waiting with
    | none => .receiving
    | some output =>
        match link.outputs[output]? with
        | some reading => .reading { reading with ctr := link.request.ctr }
        | none => .closed
  else .closed

def serving (link : Link) : Serving := ⟨link.request, link.unread, link.stage, link.served⟩

/-- The connection once the script has done with what is in the queue. -/
def settled (script : List UInt8 → Nat) (memory : Memory UInt8) (link : Link) : Serving :=
  if link.queued = 0 then link.serving
  else match link.waiting with
    | none => link.serving.resume script memory
    | some output => link.serving.finish (link.body output)

/-- One operation, completion or place in the queue is all there is of the request,
and it belongs to what the script waits for. -/
structure Sequential (link : Link) : Prop where
  one : link.reads.length + link.ready.length + link.broken.length + link.queued = if link.opened then 1 else 0
  own : ∀ handler ∈ link.reads ++ (link.ready ++ link.broken), handler = link.handler
  known : ∀ output ∈ link.waiting, output < link.outputs.length

section

variable {link next : Link} {worker : Worker} {script : List UInt8 → Nat} {memory : Memory UInt8}

/-- Nothing is armed or queued while a handler or the script is at work on the request. -/
structure Alone (link : Link) : Prop where
  opened : link.opened = true
  reads : link.reads = []
  ready : link.ready = []
  broken : link.broken = []
  queued : link.queued = 0
  known : ∀ output ∈ link.waiting, output < link.outputs.length

/-- Whoever takes the one completion or place in the queue is alone with the request. -/
theorem Sequential.alone (sequential : link.Sequential) {ready broken : List Handler} {queued : Nat}
    (taken : ready.length + broken.length + queued + 1 = link.ready.length + link.broken.length + link.queued) :
    ({ link with ready := ready, broken := broken, queued := queued } : Link).Alone := by
  have one := sequential.one
  split at one
  · rename_i opened
    have unarmed : link.reads.length = 0 := by omega
    have unready : ready.length = 0 := by omega
    have unbroken : broken.length = 0 := by omega
    have unqueued : queued = 0 := by omega
    exact ⟨opened, List.length_eq_zero_iff.mp unarmed, List.length_eq_zero_iff.mp unready,
      List.length_eq_zero_iff.mp unbroken, unqueued, sequential.known⟩
  · omega

theorem Alone.enqueue (alone : link.Alone) : link.enqueue.Sequential := by
  refine ⟨?_, ?_, alone.known⟩
  · simp [Link.enqueue, alone.reads, alone.ready, alone.broken, alone.queued, alone.opened]
  · simp [Link.enqueue, alone.reads, alone.ready, alone.broken]

theorem Alone.asyncReadSome (alone : link.Alone) : (link.asyncReadSome link.handler).Sequential := by
  have armed : link.asyncReadSome link.handler = { link with reads := [link.handler] } := by
    rw [Link.asyncReadSome, if_pos alone.opened, alone.reads, List.nil_append]
  rw [armed]
  refine ⟨?_, ?_, alone.known⟩
  · simp [alone.ready, alone.broken, alone.queued, alone.opened]
  · simp [alone.ready, alone.broken, handler]

theorem Alone.abort (alone : link.Alone) : link.abort.Sequential := by
  refine ⟨?_, ?_, alone.known⟩
  · simp [Link.abort, alone.ready, alone.broken, alone.queued]
  · simp [Link.abort, alone.ready, alone.broken]

/-- Arming a wait shows nowhere but in what is armed. -/
theorem Alone.asyncWait (alone : link.Alone) (handler : Handler) : (link.asyncWait handler).Alone :=
  ⟨alone.opened, alone.reads, alone.ready, alone.broken, alone.queued, alone.known⟩

theorem asyncReadSome_serving (link : Link) (handler : Handler) : (link.asyncReadSome handler).serving = link.serving := by
  rw [asyncReadSome]
  split <;> rfl

theorem asyncReadSome_queued (link : Link) (handler : Handler) : (link.asyncReadSome handler).queued = link.queued := by
  rw [asyncReadSome]
  split <;> rfl

/-- What a handler or the script leaves behind is what `Serving` has in its place. -/
structure Becomes (script : List UInt8 → Nat) (memory : Memory UInt8) (next : Link) (serving : Serving) : Prop where
  sequential : next.Sequential
  settled : next.settled script memory = serving

theorem Alone.becomes_armed (alone : link.Alone) : Becomes script memory (link.asyncReadSome link.handler) link.serving := by
  refine ⟨alone.asyncReadSome, ?_⟩
  rw [Link.settled, if_pos ((asyncReadSome_queued _ _).trans alone.queued), asyncReadSome_serving]

theorem Alone.becomes_closed (alone : link.Alone) :
    Becomes script memory link.abort { link.serving with stage := .closed } :=
  ⟨alone.abort, if_pos alone.queued⟩

theorem Alone.readRequest (alone : link.Alone) (receiving : link.waiting = none) (timed : Bool) :
    Becomes script memory (link.readRequest timed) link.serving := by
  have handler (link : Link) (receiving : link.waiting = none) : link.handler = .processMsgpackRequest := by
    rw [Link.handler, receiving]
  cases timed with
  | false =>
      rw [Link.readRequest, ← handler link receiving]
      exact alone.becomes_armed
  | true =>
      have armed : link.readRequest true = (link.asyncWait .processMsgpackRequest).asyncReadSome
          (link.asyncWait .processMsgpackRequest).handler := by
        rw [handler (link.asyncWait .processMsgpackRequest) receiving]
        rfl
      rw [armed]
      exact (alone.asyncWait .processMsgpackRequest).becomes_armed

theorem accept_becomes (script : List UInt8 → Nat) (memory : Memory UInt8) (request : Workers.Request)
    (stream : List UInt8) : Becomes script memory (accept request stream) (Serving.accept request stream) :=
  Alone.readRequest ⟨rfl, rfl, rfl, rfl, rfl, by simp⟩ rfl true

theorem Alone.awaitRead (alone : link.Alone) {output : Nat} (reading : link.waiting = some output) :
    Becomes script memory (link.awaitRead output) link.serving := by
  have armed : link.awaitRead output = (link.asyncWait (.readHandler output)).asyncReadSome
      (link.asyncWait (.readHandler output)).handler := by
    have own : (link.asyncWait (.readHandler output)).handler = .readHandler output := by
      simp only [handler, Link.asyncWait, cancelTimer, reading]
    rw [own]
    rfl
  rw [armed]
  exact (alone.asyncWait (.readHandler output)).becomes_armed

theorem Alone.processMsgpackRequest (alone : link.Alone) (receiving : link.waiting = none) (count : Nat) :
    Becomes script memory (link.processMsgpackRequest worker count)
      (link.serving.readable worker script memory count) := by
  obtain ⟨request, outputs, waiting, opened, unread, waits, reads, ready, broken, cancelled, queued, served⟩ := link
  obtain ⟨opens, none, unready, unbroken, unqueued, known⟩ := alone
  subst opens none unready unbroken unqueued receiving
  have acts : ((Connection.mk request unread).step worker (.readable count)).2 ≠ .ignored :=
    Request.processMsgpackRequest_acts worker request _
  rcases called : (Connection.mk request unread).step worker (.readable count) with ⟨⟨request', unread'⟩, outcome⟩
  rw [called] at acts
  have after : (Link.mk request' outputs none true unread' [] [] [] [] (cancelled + waits.length) 0 served).Alone :=
    ⟨rfl, rfl, rfl, rfl, rfl, known⟩
  simp only [Link.processMsgpackRequest, cancelTimer, if_true, serving, stage, Serving.readable, called]
  cases outcome with
  | enqueued => exact ⟨after.enqueue, rfl⟩
  | rearmed => exact after.readRequest rfl true
  | recycled => exact after.becomes_closed
  | ignored => contradiction

theorem transfer_acts (transfer : Workers.Transfer) (count : Nat) : (transfer.readable count).2 ≠ .ignored := by
  simp only [Workers.Transfer.readable, Reading.readHandler]
  split
  · simp only
    split <;> simp
  · simp

theorem Alone.readHandler (alone : link.Alone) {output : Nat} (waited : link.waiting = some output) (count : Nat) :
    Becomes script memory (link.readHandler output count) (link.serving.readable worker script memory count) := by
  obtain ⟨request, outputs, waiting, opened, unread, waits, reads, ready, broken, cancelled, queued, served⟩ := link
  obtain ⟨opens, none, unready, unbroken, unqueued, known⟩ := alone
  subst opens none unready unbroken unqueued waited
  have inside : output < outputs.length := known output rfl
  obtain ⟨reading, found⟩ : ∃ reading, outputs[output]? = some reading := ⟨_, List.getElem?_eq_getElem inside⟩
  have acts := transfer_acts ⟨{ reading with ctr := request.ctr }, unread⟩ count
  rcases called : Workers.Transfer.readable ⟨{ reading with ctr := request.ctr }, unread⟩ count with
    ⟨⟨reading', unread'⟩, outcome⟩
  rw [called] at acts
  have stored : (outputs.set output reading')[output]? = some reading' := List.getElem?_set_self inside
  have after : (Link.mk { request with ctr := reading'.ctr } (outputs.set output reading') (some output) true unread'
      [] [] [] [] (cancelled + waits.length) 0 served).Alone := by
    refine ⟨rfl, rfl, rfl, rfl, rfl, fun other same => ?_⟩
    rw [List.length_set]
    exact known other same
  simp only [Link.readHandler, cancelTimer, if_true, serving, stage, Serving.readable, found, called]
  cases outcome with
  | enqueued =>
      refine ⟨after.enqueue, ?_⟩
      simp [Link.settled, Link.enqueue, serving, stage, stored, body]
  | rearmed =>
      have armed : Becomes script memory _ _ := after.awaitRead rfl
      simpa only [serving, stage, if_true, stored] using armed
  | failed => exact after.becomes_closed
  | ignored => contradiction

theorem Alone.finish (alone : link.Alone) (body : List UInt8) :
    Becomes script memory (link.finish body) (link.serving.finish body) := by
  obtain ⟨request, outputs, waiting, opened, unread, waits, reads, ready, broken, cancelled, queued, served⟩ := link
  obtain ⟨opens, none, unready, unbroken, unqueued, _⟩ := alone
  subst opens none unready unbroken unqueued
  have after : (Link.mk request.reset outputs none true unread waits [] [] [] cancelled 0
      (served ++ [(header request, body)])).Alone := ⟨rfl, rfl, rfl, rfl, rfl, by simp⟩
  exact after.readRequest rfl false

theorem Alone.resume (alone : link.Alone) :
    Becomes script memory (link.resume script memory) (link.serving.resume script memory) := by
  have same : link.serving.request = link.request := rfl
  simp only [Link.resume, Serving.resume, same]
  split
  · exact alone.finish []
  · rename_i some
    have started : startRead memory (script (header link.request)) =
        Option.some ⟨memory, script (header link.request), 0⟩ := if_neg (by omega)
    simp only [started]
    have after : ({ link with
        request := { link.request with ctr := 0 }
        outputs := link.outputs ++ [⟨memory, script (header link.request), 0⟩]
        waiting := Option.some link.outputs.length } : Link).Alone :=
      ⟨alone.opened, alone.reads, alone.ready, alone.broken, alone.queued, by simp⟩
    have armed : Becomes script memory _ _ := after.awaitRead rfl
    simpa [serving, stage, alone.opened] using armed

/-- A call of a handler is a call in `Serving`. -/
theorem Sequential.deliver (sequential : link.Sequential) {count : Nat}
    (taken : link.step worker script memory (.deliver count) = some next) :
    0 < count ∧ link.unread ≠ [] ∧ link.opened = true ∧ link.settled script memory = link.serving ∧
      Becomes script memory next (link.serving.readable worker script memory count) := by
  simp only [step, Option.ite_none_right_eq_some] at taken
  obtain ⟨⟨positive, enough⟩, taken⟩ := taken
  have some : link.unread ≠ [] := by
    rintro none
    rw [none, List.length_nil] at enough
    omega
  split at taken
  · rename_i ready found
    cases taken
    have own := sequential.own .processMsgpackRequest (by simp [found])
    have alone : ({ link with ready := ready } : Link).Alone := sequential.alone (by rw [found, List.length_cons]; omega)
    have receiving : link.waiting = none := by
      cases waited : link.waiting with
      | none => rfl
      | some output => simp [handler, waited] at own
    exact ⟨positive, some, alone.opened, if_pos alone.queued, alone.processMsgpackRequest receiving count⟩
  · rename_i output ready found
    cases taken
    have own := sequential.own (.readHandler output) (by simp [found])
    have alone : ({ link with ready := ready } : Link).Alone := sequential.alone (by rw [found, List.length_cons]; omega)
    have waited : link.waiting = Option.some output := by
      cases waited : link.waiting with
      | none => simp [handler, waited] at own
      | some other => simpa [handler, waited, eq_comm] using own
    exact ⟨positive, some, alone.opened, if_pos alone.queued, alone.readHandler waited count⟩
  · cases taken

theorem Sequential.getNext (sequential : link.Sequential)
    (taken : link.step worker script memory .getNext = some next) :
    Becomes script memory next (link.settled script memory) := by
  simp only [step, Option.ite_none_right_eq_some] at taken
  obtain ⟨queued, taken⟩ := taken
  have alone : ({ link with queued := link.queued - 1 } : Link).Alone := sequential.alone (by omega)
  rw [settled, if_neg (by omega)]
  split at taken
  · rename_i receiving
    cases taken
    simp only [receiving]
    exact alone.resume
  · rename_i output waited
    cases taken
    simp only [waited]
    exact alone.finish _

/-- Where the one operation is does not show in what is served. -/
theorem Sequential.moved {reads ready broken : List Handler} (sequential : link.Sequential)
    (same : (reads ++ (ready ++ broken)).Perm (link.reads ++ (link.ready ++ link.broken))) :
    Becomes script memory { link with reads := reads, ready := ready, broken := broken } (link.settled script memory) := by
  refine ⟨⟨?_, fun other member => sequential.own other (same.mem_iff.mp member), sequential.known⟩, rfl⟩
  have one := sequential.one
  have length := same.length_eq
  simp only [List.length_append] at length
  simp only
  omega

theorem Alone.failed (alone : link.Alone) (script : List UInt8 → Nat) (memory : Memory UInt8) (handler : Handler) :
    (link.failed handler).Sequential ∧ ((link.failed handler).settled script memory).served = link.served := by
  cases handler with
  | processMsgpackRequest =>
      obtain ⟨sequential, settled⟩ : Becomes script memory link.abort _ := alone.becomes_closed
      exact ⟨sequential, by rw [Link.failed, settled]; rfl⟩
  | readHandler output =>
      have closed := alone.abort
      refine ⟨⟨closed.one, closed.own, ?_⟩, ?_⟩
      · intro other waited
        rw [Link.failed, List.length_modify]
        exact alone.known other waited
      · rw [Link.settled, if_pos (by exact alone.queued)]
        rfl

theorem Sequential.deliverBroken (sequential : link.Sequential)
    (taken : link.step worker script memory .deliverBroken = some next) :
    next.Sequential ∧ (next.settled script memory).served = (link.settled script memory).served ∧
      next.opened = false := by
  simp only [step] at taken
  split at taken
  · rename_i handler broken found
    cases taken
    have alone : ({ link with broken := broken } : Link).Alone := sequential.alone (by rw [found, List.length_cons]; omega)
    obtain ⟨after, served⟩ := alone.failed script memory handler
    refine ⟨after, ?_, by cases handler <;> rfl⟩
    rw [served, settled, if_pos (by exact alone.queued)]
    rfl
  · cases taken

/-- How much there can still be to do: a byte may need a completion and a place in the
queue, and each of them arms a read and a wait, which is cancelled in the end. -/
def effort (link : Link) : Nat :=
  4 * link.unread.length + link.waits.length + link.cancelled + link.ready.length + link.broken.length +
    2 * link.reads.length + 4 * link.queued

theorem asyncReadSome_effort (link : Link) (handler : Handler) :
    (link.asyncReadSome handler).effort ≤ link.effort + 2 ∧ (link.asyncReadSome handler).unread = link.unread := by
  rw [asyncReadSome]
  split
  all_goals
    simp only [effort, List.length_append, List.length_singleton, and_true]
    omega

theorem asyncWait_effort (link : Link) (handler : Handler) : (link.asyncWait handler).effort = link.effort + 1 := by
  simp only [effort, asyncWait, cancelTimer, List.length_singleton]
  omega

theorem abort_effort (link : Link) : link.abort.effort ≤ link.effort := by
  simp only [effort, abort, List.length_nil]
  omega

theorem enqueue_effort (link : Link) : link.enqueue.effort = link.effort + 4 := by
  simp only [effort, enqueue]
  omega

theorem readRequest_effort (link : Link) (timed : Bool) :
    (link.readRequest timed).effort ≤ link.effort + 3 ∧ (link.readRequest timed).unread = link.unread := by
  cases timed with
  | false =>
      obtain ⟨less, same⟩ := asyncReadSome_effort link .processMsgpackRequest
      exact ⟨Nat.le_succ_of_le less, same⟩
  | true =>
      obtain ⟨less, same⟩ := asyncReadSome_effort (link.asyncWait .processMsgpackRequest) .processMsgpackRequest
      rw [asyncWait_effort] at less
      exact ⟨less, same⟩

theorem awaitRead_effort (link : Link) (output : Nat) :
    (link.awaitRead output).effort ≤ link.effort + 3 ∧ (link.awaitRead output).unread = link.unread := by
  obtain ⟨less, same⟩ := asyncReadSome_effort (link.asyncWait (.readHandler output)) (.readHandler output)
  rw [asyncWait_effort] at less
  exact ⟨less, same⟩

theorem finish_effort (link : Link) (body : List UInt8) : (link.finish body).effort ≤ link.effort + 3 :=
  (readRequest_effort _ false).1

theorem resume_effort (link : Link) : (link.resume script memory).effort ≤ link.effort + 3 := by
  simp only [resume]
  split
  · exact finish_effort link []
  · split
    · exact (awaitRead_effort _ _).1
    · exact Nat.le_add_right _ _

/-- A handler that has taken some of the bytes arms its operations or queues the
request. -/
theorem taken_effort {request : Workers.Request} {outputs : List Reading} {unread : List UInt8} {after : Link}
    (more : after.effort ≤ ({ link.cancelTimer with
      request := request, outputs := outputs, unread := unread } : Link).effort + 4)
    (same : after.unread = unread) :
    after.effort + 4 * link.unread.length ≤ link.effort + 4 * after.unread.length + 4 := by
  rw [same]
  simp only [effort, cancelTimer, List.length_nil] at more ⊢
  omega

theorem processMsgpackRequest_effort (worker : Worker) (link : Link) (count : Nat) :
    (link.processMsgpackRequest worker count).effort + 4 * link.unread.length ≤
      link.effort + 4 * (link.processMsgpackRequest worker count).unread.length + 4 := by
  simp only [processMsgpackRequest]
  split
  · generalize (Connection.mk link.cancelTimer.request link.cancelTimer.unread).step worker (.readable count) = result
    obtain ⟨⟨request, unread⟩, outcome⟩ := result
    let after : Link := { link.cancelTimer with request := request, unread := unread }
    cases outcome with
    | enqueued => exact taken_effort (enqueue_effort after).le rfl
    | rearmed =>
        obtain ⟨less, same⟩ := readRequest_effort after true
        exact taken_effort (Nat.le_succ_of_le less) same
    | recycled => exact taken_effort (Nat.le_add_right_of_le (abort_effort after)) rfl
    | ignored => exact taken_effort (Nat.le_add_right after.effort 4) rfl
  · exact taken_effort (Nat.le_add_right_of_le (abort_effort link.cancelTimer)) rfl

theorem readHandler_effort (link : Link) (output count : Nat) :
    (link.readHandler output count).effort + 4 * link.unread.length ≤
      link.effort + 4 * (link.readHandler output count).unread.length + 4 := by
  simp only [readHandler]
  split
  · rename_i reading _
    split
    · generalize Workers.Transfer.readable ⟨{ reading with ctr := link.cancelTimer.request.ctr },
        link.cancelTimer.unread⟩ count = result
      obtain ⟨⟨taken, unread⟩, outcome⟩ := result
      let after : Link := { link.cancelTimer with
        request := { link.request with ctr := taken.ctr }
        unread := unread
        outputs := link.outputs.set output taken }
      cases outcome with
      | enqueued => exact taken_effort (enqueue_effort after).le rfl
      | rearmed =>
          obtain ⟨less, same⟩ := awaitRead_effort after output
          exact taken_effort (Nat.le_succ_of_le less) same
      | failed => exact taken_effort (Nat.le_add_right_of_le (abort_effort after)) rfl
      | ignored => exact taken_effort (Nat.le_add_right after.effort 4) rfl
    · exact taken_effort (Nat.le_add_right_of_le (abort_effort link.cancelTimer)) rfl
  · exact taken_effort (Nat.le_add_right _ _) rfl

theorem deliver_effort {count : Nat} (taken : link.step worker script memory (.deliver count) = some next)
    (shorter : next.unread.length < link.unread.length) : next.effort < link.effort := by
  simp only [step, Option.ite_none_right_eq_some] at taken
  obtain ⟨_, taken⟩ := taken
  have less (handler : Handler) (ready : List Handler) (found : link.ready = handler :: ready) :
      ({ link with ready := ready } : Link).effort + 1 = link.effort := by
    simp only [effort, found, List.length_cons]
    omega
  split at taken
  · rename_i ready found
    have cost := processMsgpackRequest_effort worker { link with ready := ready } count
    have popped := less _ _ found
    cases taken
    simp only at cost
    omega
  · rename_i output ready found
    have cost := readHandler_effort { link with ready := ready } output count
    have popped := less _ _ found
    cases taken
    simp only at cost
    omega
  · cases taken

theorem settled_unread (link : Link) : (link.settled script memory).unread = link.unread := by
  rw [settled]
  split
  · rfl
  · split
    · simp only [Serving.resume]
      split
      · rfl
      · split <;> rfl
    · rfl

theorem served_settled (link : Link) : link.served <+: (link.settled script memory).served := by
  rw [settled]
  split
  · exact List.prefix_rfl
  · split
    · simp only [Serving.resume]
      split
      · exact List.prefix_append _ _
      · split <;> exact List.prefix_rfl
    · exact List.prefix_append _ _

/-- What has been served, and what the connection still expects unless it has failed. -/
structure Attends (script : List UInt8 → Nat) (memory : Memory UInt8) (pending : List (Message × List UInt8))
    (link : Link) : Prop where
  sequential : link.Sequential
  progress : ∃ done later, pending = done ++ later ∧ (link.settled script memory).served = done.map answered ∧
    (link.opened = true → Expects (link.settled script memory) later)

theorem Sequential.opened_of_expects (sequential : link.Sequential) {later : List (Message × List UInt8)}
    (expects : Expects (link.settled script memory) later) : link.opened = true := by
  by_cases queued : link.queued = 0
  · rw [settled, if_pos queued] at expects
    by_contra closed
    have stage : link.serving.stage = .closed := if_neg closed
    cases expects with
    | idle receiving | receiving receiving => simp [stage] at receiving
    | reading reading => simp [stage] at reading
  · have one := sequential.one
    split at one
    · assumption
    · omega

section

variable {pending : List (Message × List UInt8)}

theorem Attends.unchanged (attends : link.Attends script memory pending)
    (becomes : Becomes script memory next (link.settled script memory)) (opened : next.opened = true → link.opened = true) :
    next.Attends script memory pending := by
  obtain ⟨done, later, split, served, expects⟩ := attends.progress
  refine ⟨becomes.sequential, done, later, split, ?_, fun opens => ?_⟩
  · rw [becomes.settled, served]
  · rw [becomes.settled]
    exact expects (opened opens)

theorem Attends.deliver {count : Nat} (serves : ∀ size ≤ 65544, worker.serves size = true)
    (exact : ∀ exchange ∈ pending, Exact script exchange) (attends : link.Attends script memory pending)
    (taken : link.step worker script memory (.deliver count) = some next) :
    next.Attends script memory pending ∧ next.opened = true ∧ next.effort < link.effort := by
  obtain ⟨positive, some, opened, idle, becomes⟩ := attends.sequential.deliver taken
  obtain ⟨done, later, rfl, served, expects⟩ := attends.progress
  have expecting := expects opened
  have unfinished : later ≠ [] := by
    rintro rfl
    cases expecting with
    | idle _ _ empty => exact some ((settled_unread link).symm.trans empty)
  have laterExact : ∀ exchange ∈ later, Exact script exchange :=
    fun exchange member => exact exchange (List.mem_append_right _ member)
  have call : Serves (link.settled script memory) ((link.settled script memory).readable worker script memory count) later
      count := expecting.serves serves laterExact count
  obtain ⟨more, rest, split, answers, expectsNext, shorter⟩ := call
  rw [idle, ← becomes.settled] at answers expectsNext shorter
  refine ⟨⟨becomes.sequential, done ++ more, rest, ?_, ?_, fun _ => expectsNext⟩,
    becomes.sequential.opened_of_expects expectsNext, ?_⟩
  · rw [split, List.append_assoc]
  · rw [answers, ← idle, served, List.map_append]
  · refine deliver_effort taken ?_
    have less := shorter positive unfinished
    rwa [settled_unread] at less

theorem failed_effort (link : Link) (handler : Handler) : (link.failed handler).effort ≤ link.effort := by
  cases handler with
  | processMsgpackRequest | readHandler output => exact abort_effort link

theorem Attends.deliverBroken (attends : link.Attends script memory pending)
    (taken : link.step worker script memory .deliverBroken = some next) :
    next.Attends script memory pending ∧ next.effort < link.effort := by
  obtain ⟨sequential, same, closed⟩ := attends.sequential.deliverBroken taken
  obtain ⟨done, later, split, served, _⟩ := attends.progress
  refine ⟨⟨sequential, done, later, split, same.trans served, fun opened => ?_⟩, ?_⟩
  · rw [closed] at opened
    cases opened
  · simp only [step] at taken
    split at taken
    · rename_i handler broken found
      cases taken
      refine Nat.lt_of_le_of_lt (failed_effort _ _) ?_
      simp only [effort, found, List.length_cons]
      omega
    · cases taken

theorem Attends.getNext (attends : link.Attends script memory pending)
    (taken : link.step worker script memory .getNext = some next) :
    next.Attends script memory pending ∧ next.opened = true ∧ next.effort < link.effort := by
  have becomes := attends.sequential.getNext taken
  have queued : 0 < link.queued := by
    simp only [step, Option.ite_none_right_eq_some] at taken
    exact taken.1
  have alone : ({ link with queued := link.queued - 1 } : Link).Alone := attends.sequential.alone (by omega)
  have opened : link.opened = true := alone.opened
  have attendsNext := attends.unchanged becomes fun _ => opened
  obtain ⟨done, later, split, served, expects⟩ := attends.progress
  refine ⟨attendsNext, becomes.sequential.opened_of_expects (becomes.settled ▸ expects opened), ?_⟩
  have less : ({ link with queued := link.queued - 1 } : Link).effort + 4 = link.effort := by
    simp only [effort]
    omega
  simp only [step, if_pos queued] at taken
  split at taken
  · cases taken
    have cost : _ ≤ _ + 3 := @resume_effort script memory { link with queued := link.queued - 1 }
    omega
  · cases taken
    have cost := finish_effort { link with queued := link.queued - 1 } (link.body ‹_›)
    exact Nat.lt_of_le_of_lt cost (by omega)

/-- Every event but an expiry uses up some of the effort, and only an error that is
delivered ends the connection. -/
theorem Attends.step {event : LinkEvent} (serves : ∀ size ≤ 65544, worker.serves size = true)
    (exact : ∀ exchange ∈ pending, Exact script exchange) (attends : link.Attends script memory pending)
    (unexpired : event ≠ .timerExpires) (taken : link.step worker script memory event = some next) :
    next.Attends script memory pending ∧ next.effort < link.effort ∧
      (event ≠ .deliverBroken → link.opened = true → next.opened = true) := by
  cases event with
  | timerExpires => contradiction
  | socketReadable =>
      simp only [Link.step] at taken
      split at taken
      · rename_i handler reads found
        simp only [Option.ite_none_right_eq_some, Option.some.injEq] at taken
        obtain ⟨_, rfl⟩ := taken
        refine ⟨attends.unchanged (attends.sequential.moved ?_) id, ?_, fun _ => id⟩
        · have middle : ((reads ++ link.ready) ++ handler :: link.broken).Perm
              (handler :: ((reads ++ link.ready) ++ link.broken)) := List.perm_middle
          simpa only [found, List.append_assoc, List.cons_append, List.nil_append] using middle
        · simp only [effort, found, List.length_cons, List.length_append, List.length_nil]
          omega
      · cases taken
  | socketError =>
      simp only [Link.step] at taken
      split at taken
      · rename_i handler reads found
        cases taken
        refine ⟨attends.unchanged (attends.sequential.moved ?_) id, ?_, fun _ => id⟩
        · have middle : ((reads ++ (link.ready ++ link.broken)) ++ [handler]).Perm
              (handler :: (reads ++ (link.ready ++ link.broken))) := List.perm_append_singleton _ _
          simpa only [found, List.append_assoc, List.cons_append] using middle
        · simp only [effort, found, List.length_cons, List.length_append, List.length_nil]
          omega
      · cases taken
  | deliver count =>
      obtain ⟨attendsNext, opened, less⟩ := attends.deliver serves exact taken
      exact ⟨attendsNext, less, fun _ _ => opened⟩
  | deliverBroken =>
      obtain ⟨attendsNext, less⟩ := attends.deliverBroken taken
      exact ⟨attendsNext, less, fun other => absurd rfl other⟩
  | deliverCancelled =>
      obtain ⟨some, rfl⟩ := guarded_step taken
      have same : Becomes script memory { link with cancelled := link.cancelled - 1 } (link.settled script memory) :=
        ⟨⟨attends.sequential.one, attends.sequential.own, attends.sequential.known⟩, rfl⟩
      refine ⟨attends.unchanged same id, ?_, fun _ => id⟩
      simp only [effort]
      omega
  | getNext =>
      obtain ⟨attendsNext, opened, less⟩ := attends.getNext taken
      exact ⟨attendsNext, less, fun _ _ => opened⟩

/-- With the effort the connection starts with, the events of a run are limited. -/
theorem Attends.run {events : List LinkEvent} (serves : ∀ size ≤ 65544, worker.serves size = true)
    (exact : ∀ exchange ∈ pending, Exact script exchange) (attends : link.Attends script memory pending)
    (unexpired : LinkEvent.timerExpires ∉ events) (ends : run (Link.step worker script memory) link events = some next) :
    next.Attends script memory pending ∧ events.length + next.effort ≤ link.effort ∧
      (LinkEvent.deliverBroken ∉ events → link.opened = true → next.opened = true) := by
  induction events generalizing link with
  | nil =>
      cases ends
      exact ⟨attends, by simp, fun _ => id⟩
  | cons event events ih =>
      obtain ⟨middle, taken, ends⟩ := Option.bind_eq_some_iff.mp ends
      rw [List.mem_cons, not_or] at unexpired
      obtain ⟨attendsMiddle, less, opens⟩ := attends.step serves exact (Ne.symm unexpired.1) taken
      obtain ⟨attendsNext, rest, opensNext⟩ := ih attendsMiddle unexpired.2 ends
      refine ⟨attendsNext, ?_, fun unbroken opened => ?_⟩
      · rw [List.length_cons]
        omega
      · rw [List.mem_cons, not_or] at unbroken
        exact opensNext unbroken.2 (opens (Ne.symm unbroken.1) opened)

/-- Nothing is left to happen but an expiry or an error of the socket. -/
def Idle (worker : Worker) (script : List UInt8 → Nat) (memory : Memory UInt8) (link : Link) : Prop :=
  ∀ event, event ≠ .timerExpires → event ≠ .socketError → link.step worker script memory event = none

theorem idle_of (unread : link.unread = []) (ready : link.ready = []) (broken : link.broken = [])
    (cancelled : link.cancelled = 0) (queued : link.queued = 0) : link.Idle worker script memory := by
  intro event unexpired errorless
  cases event with
  | timerExpires | socketError => contradiction
  | socketReadable =>
      simp only [Link.step, unread]
      split <;> simp
  | deliver count => simp [Link.step, ready]
  | deliverBroken => simp [Link.step, broken]
  | deliverCancelled => simp [Link.step, cancelled]
  | getNext => simp [Link.step, queued]

theorem Attends.idle (attends : link.Attends script memory pending) (opened : link.opened = true)
    (idle : link.Idle worker script memory) : link.served = pending.map answered := by
  obtain ⟨done, later, rfl, served, expects⟩ := attends.progress
  have one := attends.sequential.one
  rw [if_pos opened] at one
  have unqueued : link.queued = 0 := by
    have none := idle .getNext (by simp) (by simp)
    by_contra queued
    simp only [Link.step, if_pos (Nat.pos_of_ne_zero queued)] at none
    split at none <;> cases none
  have finished : later = [] := by
    by_contra more
    have unread := (expects opened).unread_pos more
    rw [settled_unread] at unread
    have some : link.unread ≠ [] := List.length_pos_iff.mp unread
    cases reads : link.reads with
    | cons handler reads =>
        have none := idle .socketReadable (by simp) (by simp)
        simp [Link.step, reads, some] at none
    | nil =>
        cases ready : link.ready with
        | cons handler ready =>
            have none := idle (.deliver 1) (by simp) (by simp)
            have enough : 0 < 1 ∧ 1 ≤ link.unread.length := ⟨Nat.one_pos, unread⟩
            simp only [Link.step, if_pos enough, ready] at none
            cases handler <;> cases none
        | nil =>
            cases broken : link.broken with
            | cons handler broken =>
                have none := idle .deliverBroken (by simp) (by simp)
                simp [Link.step, broken] at none
            | nil => simp [reads, ready, broken, unqueued] at one
  rw [settled, if_pos unqueued] at served
  rw [finished, List.append_nil]
  exact served

end

end

end Link

/-- All that the nginx module sends over a connection, one request after the other,
arrives at the script, each header with its own body and in order, wherever the
stream is cut and in whatever order the completions, the cancellations and the script
take turns, as long as no wait expires.  There is an end to it, and unless an error of
the socket was handled, all of them are served by then. -/
theorem keepAlive_delivers (worker : Worker) (serves : ∀ size ≤ 65544, worker.serves size = true)
    (memory : Memory UInt8) (receiver : Workers.Request) (ready : receiver.Ready) (requests : List NgxRequest)
    (chains : List (List Buf))
    (created : List.Forall₂ (fun request chain => ∃ pool, request.createRequest pool = some chain) requests chains)
    (deliverable : ∀ request ∈ requests, Deliverable request) (events : List LinkEvent)
    (unexpired : LinkEvent.timerExpires ∉ events) (reached : Link)
    (ends : run (Link.step worker announced memory) (Link.accept receiver (chains.map chainContent).flatten) events =
      some reached) :
    let sent := requests.map fun request => (request.payload, chainContent request.requestBufs)
    reached.served <+: sent ∧ events.length ≤ 4 * (chains.map chainContent).flatten.length + 3 ∧
      (LinkEvent.deliverBroken ∉ events → reached.Idle worker announced memory → reached.served = sent) := by
  intro sent
  have stream_eq := wire_exchanges created deliverable
  have exact : ∀ pair ∈ requests.pmap exchange deliverable, Exact announced pair := by
    intro pair member
    obtain ⟨request, listed, rfl⟩ := List.mem_pmap.mp member
    exact exchange_exact (deliverable request listed)
  have answers : (requests.pmap exchange deliverable).map answered = sent := by
    have pair : (fun request (deliverable : Deliverable request) => answered (exchange request deliverable)) =
        fun request _ => (request.payload, chainContent request.requestBufs) := rfl
    rw [List.map_pmap, pair]
    exact List.pmap_eq_map _
  have attends : (Link.accept receiver (chains.map chainContent).flatten).Attends announced memory
      (requests.pmap exchange deliverable) := by
    obtain ⟨sequential, settled⟩ := Link.accept_becomes announced memory receiver (chains.map chainContent).flatten
    refine ⟨sequential, [], _, rfl, ?_, fun _ => ?_⟩
    · rw [settled]
      rfl
    · rw [settled]
      exact expects_ready rfl ready stream_eq.symm
  obtain ⟨attendsReached, less, opens⟩ := attends.run serves exact unexpired ends
  have bound : (Link.accept receiver (chains.map chainContent).flatten).effort =
      4 * (chains.map chainContent).flatten.length + 3 := rfl
  refine ⟨?_, by omega, fun unbroken idle => ?_⟩
  · obtain ⟨done, later, split, served, _⟩ := attendsReached.progress
    rw [← answers, split, List.map_append, ← served]
    exact (Link.served_settled reached).trans (List.prefix_append _ _)
  · rw [← answers]
    exact attendsReached.idle (opens unbroken rfl) idle

theorem hostUri_short : stringsLength [some [0x2f], some [0x61], none, none] < 2147483648 := by decide

def getHost : NgxRequest where
  method := .get
  contentLength := none
  requestBody := none
  unparsedUri := [0x2f]
  host := some [0x61]
  userAgent := none
  cookies := []
  ordered := List.forall_mem_nil _
  short := hostUri_short

/-- `POST /` with the body `AA` for the host `a`. -/
def postHost : NgxRequest where
  method := .post
  contentLength := some [0x32]
  requestBody := some [⟨fun _ => 0x41, 0, 0, 2, 2, none⟩]
  unparsedUri := [0x2f]
  host := some [0x61]
  userAgent := none
  cookies := []
  ordered := List.forall_mem_singleton.mpr ⟨Nat.le_refl 0, Nat.zero_le 2⟩
  short := hostUri_short

theorem postHost_deliverable : Deliverable postHost :=
  ⟨by simp [postHost], by decide, by decide, by decide, by simp [Tiny, postHost]⟩

theorem getHost_deliverable : Deliverable getHost :=
  ⟨by simp [getHost], by decide, by decide, by decide, by simp [Tiny, getHost]⟩

/-- The bytes arrive three at a time, the wait of every read is cancelled, and the
script takes the request whenever it is queued. -/
def threeAtATime : List LinkEvent :=
  [.socketReadable, .deliver 3, .socketReadable, .deliver 3, .deliverCancelled, .socketReadable, .deliver 3, .getNext,
    .socketReadable, .deliver 2, .getNext, .socketReadable, .deliver 3, .socketReadable, .deliver 3, .socketReadable,
    .deliver 3, .getNext, .deliverCancelled, .deliverCancelled, .deliverCancelled, .deliverCancelled, .deliverCancelled]

def postThenGet : List (List Buf) :=
  [postHost.headerBuf .zeroed :: postHost.requestBufs, getHost.headerBuf .zeroed :: getHost.requestBufs]

theorem keepAlive_delivers_three_at_a_time :
    ∃ reached, run (Link.step (Worker.unlimited 1) announced fun _ => 0)
        (Link.accept Request.new (postThenGet.map chainContent).flatten) threeAtATime = some reached ∧
      reached.served = [([0x02, 0x08, 0xa1, 0x2f, 0xa1, 0x61, 0xc0, 0xc0], [0x41, 0x41]),
        ([0x00, 0x02, 0xa1, 0x2f, 0xa1, 0x61, 0xc0, 0xc0], [])] := by
  have created : List.Forall₂ (fun request chain => ∃ pool, NgxRequest.createRequest pool request = some chain)
      [postHost, getHost] postThenGet := .cons ⟨.zeroed, rfl⟩ (.cons ⟨.zeroed, rfl⟩ .nil)
  have deliverable : ∀ request ∈ [postHost, getHost], Deliverable request := by
    simp [postHost_deliverable, getHost_deliverable]
  have seen : (run (Link.step (Worker.unlimited 1) announced fun _ => 0)
      (Link.accept Request.new (postThenGet.map chainContent).flatten) threeAtATime).map (fun link =>
        (link.unread, link.ready, link.broken, link.cancelled, link.queued)) = some ([], [], [], 0, 0) := by
    decide +kernel
  obtain ⟨reached, ends, facts⟩ := Option.map_eq_some_iff.mp seen
  obtain ⟨unread, ready, broken, cancelled, queued⟩ : reached.unread = [] ∧ reached.ready = [] ∧ reached.broken = [] ∧
      reached.cancelled = 0 ∧ reached.queued = 0 := by simpa using facts
  have idle : reached.Idle (Worker.unlimited 1) announced fun _ => 0 := Link.idle_of unread ready broken cancelled queued
  have delivers := keepAlive_delivers (Worker.unlimited 1) (fun _ => Worker.unlimited_serves) (fun _ => 0) Request.new
    Request.new_ready [postHost, getHost] postThenGet created deliverable threeAtATime (by decide) reached ends
  have sent : [postHost, getHost].map (fun request => (request.payload, chainContent request.requestBufs)) =
      [([0x02, 0x08, 0xa1, 0x2f, 0xa1, 0x61, 0xc0, 0xc0], [0x41, 0x41]),
        ([0x00, 0x02, 0xa1, 0x2f, 0xa1, 0x61, 0xc0, 0xc0], [])] := by decide +kernel
  exact ⟨reached, ends, (delivers.2.2 (by decide) idle).trans sent⟩

-- A wait that expires while the header arrives queues the request twice, and the
-- script takes the second time for the end of its read.
example : (run (Link.step (Worker.unlimited 1) announced fun _ => 0)
    (Link.accept Request.new (postThenGet.map chainContent).flatten)
    [.socketReadable, .timerExpires, .deliver 9, .deliver 1, .getNext, .getNext]).map Link.served =
      some [([0x02, 0x08, 0xa1, 0x2f, 0xa1, 0x61, 0xc0, 0xc0], [0, 0])] := by decide +kernel

end Webapp.Protocol

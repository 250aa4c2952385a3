import Webapp.Workers.Connect
import Webapp.Workers.WriteOrder

namespace Webapp.Workers

open Webapp.Data

/-! The life of a `LuaSocket` from `create_socket` to `Socket_Destroy`.  The handlers
of connecting, reading and writing hold its address.  `Socket_Destroy` cancels the
operations that are still armed and deletes it, but a completion that is queued by
then, or that the cancellation queues, runs all the same.
-/

variable {Endpoint : Type}

/-- How far connecting is, with the iterator that is bound to `connect_handler`.
`resolved` and `connected` are completions in the queue of the service. -/
inductive Dialing (Endpoint : Type) where
  | idle
  | resolving
  | resolved (lookup : Lookup Endpoint)
  | connecting (iterator : List Endpoint)
  | connected (code : ErrorCode) (iterator : List Endpoint)

/-- What `read_some` in `read_handler` brings: the rest of the bytes, some of them, or
an exception. -/
inductive Received where
  | rest
  | part
  | thrown
deriving DecidableEq, Repr

structure LuaSocket (Endpoint : Type) where
  writer : Writer
  dialing : Dialing Endpoint
  -- the armed operations of all reads
  waits : Nat
  reads : Nat
  -- queued completions: expired waits, readable and failed reads, cancelled ones
  expired : Nat
  readable : Nat
  broken : Nat
  cancelled : Nat

namespace Dialing

/-- Of the operations of connecting only `async_connect` belongs to the socket: the
resolver is the worker's. -/
def cancel : Dialing Endpoint → Dialing Endpoint
  | .connecting iterator => .connected .aborted iterator
  | dialing => dialing

def isConnecting : Dialing Endpoint → Bool
  | .connecting _ => true
  | .idle | .resolving | .resolved _ | .connected _ _ => false

/-- No handler that is still to run uses the socket once it is aborted. -/
def Quiet : Dialing Endpoint → Prop
  | .idle => True
  | .resolving | .resolved _ => False
  | .connecting iterator => iterator = []
  | .connected code iterator => code = .success ∨ (code = .aborted ∧ iterator = [])

end Dialing

namespace LuaSocket

def create : LuaSocket Endpoint where
  writer := { Writer.connected with opened := false }
  dialing := .resolving
  waits := 0
  reads := 0
  expired := 0
  readable := 0
  broken := 0
  cancelled := 0

/-- A handler uses the socket, which is a fault when it was deleted. -/
def touch (socket : LuaSocket Endpoint) : LuaSocket Endpoint :=
  { socket with writer := { socket.writer with fault := socket.writer.fault || socket.writer.destroyed } }

/-- `timer.cancel()` reaches only waits whose completion is not queued yet. -/
def cancelTimer (socket : LuaSocket Endpoint) : LuaSocket Endpoint :=
  { socket with waits := 0, cancelled := socket.cancelled + socket.waits }

/-- `Socket::abort` -/
def abort (socket : LuaSocket Endpoint) : LuaSocket Endpoint :=
  { socket with
    writer := socket.writer.abort
    dialing := socket.dialing.cancel
    waits := 0
    reads := 0
    cancelled := socket.cancelled + socket.waits + socket.reads }

/-- `async_connect` opens a socket that is closed. -/
def asyncConnect (socket : LuaSocket Endpoint) (iterator : List Endpoint) : LuaSocket Endpoint :=
  { socket with writer := { socket.writer with opened := true }, dialing := .connecting iterator }

def resolveHandler (socket : LuaSocket Endpoint) : Lookup Endpoint → LuaSocket Endpoint
  | .failed => socket.touch.abort
  | .found _ iterator => socket.touch.asyncConnect iterator

/-- With the code of an aborted operation and no endpoint left the handler does
nothing; with one left it goes on to that. -/
def connectHandler (socket : LuaSocket Endpoint) (code : ErrorCode) (iterator : List Endpoint) : LuaSocket Endpoint :=
  if code = .success then socket
  else
    match iterator with
    | _ :: iterator => socket.touch.abort.asyncConnect iterator
    | [] => if code = .aborted then socket else socket.touch.abort

/-- The two operations that `start_read` and `read_handler` arm.  `expires_from_now`
cancels the wait that is still armed, and a read on a closed socket fails at once. -/
def arm (socket : LuaSocket Endpoint) : LuaSocket Endpoint :=
  if socket.writer.opened then { socket.cancelTimer with waits := 1, reads := socket.reads + 1 }
  else { socket.cancelTimer with waits := 1, broken := socket.broken + 1 }

/-- `read_handler` without an error, which both the timer and the socket call it with. -/
def readHandler (socket : LuaSocket Endpoint) (received : Received) : LuaSocket Endpoint :=
  let socket := socket.touch.cancelTimer
  if socket.writer.opened then
    match received with
    | .rest => socket
    | .part => socket.arm
    | .thrown => socket.abort
  else socket.abort

/-- While the socket connects, writes wait behind that operation. -/
def tried (socket : LuaSocket Endpoint) (attempt : Attempt) : Attempt :=
  if socket.dialing.isConnecting then .wouldBlock else attempt

def write (socket : LuaSocket Endpoint) (event : WriterEvent) : Option (LuaSocket Endpoint) :=
  (socket.writer.step event).map fun writer => { socket with writer := writer }

/-- `Socket_Destroy` -/
def destroy (socket : LuaSocket Endpoint) : LuaSocket Endpoint :=
  { socket.abort with writer := socket.writer.destroy }

end LuaSocket

inductive SocketEvent (Endpoint : Type) where
  | resolve (lookup : Lookup Endpoint)
  | deliverResolved
  | connect (succeeds : Bool)
  | deliverConnected
  | read
  | timerExpires
  | socketReadable
  | socketError
  | deliverExpired (received : Received)
  | deliverReadable (received : Received)
  | deliverBroken
  | deliverCancelled
  | write (bytes : List UInt8) (attempt : Attempt)
  | perform (attempt : Attempt)
  | complete (index : Nat) (attempt : Attempt)
  | destroy

namespace LuaSocket

/-- The script reads, writes and destroys; the rest is what the operating system and
the thread of the service do. -/
def step (socket : LuaSocket Endpoint) : SocketEvent Endpoint → Option (LuaSocket Endpoint)
  | .resolve lookup =>
      match socket.dialing with
      | .resolving => some { socket with dialing := .resolved lookup }
      | _ => none
  | .deliverResolved =>
      match socket.dialing with
      | .resolved lookup => some ({ socket with dialing := .idle }.resolveHandler lookup)
      | _ => none
  | .connect succeeds =>
      match socket.dialing with
      | .connecting iterator =>
          some { socket with dialing := .connected (if succeeds then .success else .failed) iterator }
      | _ => none
  | .deliverConnected =>
      match socket.dialing with
      | .connected code iterator => some ({ socket with dialing := .idle }.connectHandler code iterator)
      | _ => none
  | .read => if socket.writer.destroyed = false then some socket.arm else none
  | .timerExpires =>
      if 0 < socket.waits then some { socket with waits := socket.waits - 1, expired := socket.expired + 1 } else none
  | .socketReadable =>
      if 0 < socket.reads then some { socket with reads := socket.reads - 1, readable := socket.readable + 1 } else none
  | .socketError =>
      if 0 < socket.reads then some { socket with reads := socket.reads - 1, broken := socket.broken + 1 } else none
  | .deliverExpired received =>
      if 0 < socket.expired then some ({ socket with expired := socket.expired - 1 }.readHandler received) else none
  | .deliverReadable received =>
      if 0 < socket.readable then some ({ socket with readable := socket.readable - 1 }.readHandler received) else none
  | .deliverBroken =>
      if 0 < socket.broken then some { socket with broken := socket.broken - 1 }.touch.abort else none
  | .deliverCancelled =>
      if 0 < socket.cancelled then some { socket with cancelled := socket.cancelled - 1 } else none
  | .write bytes attempt => socket.write (.write bytes (socket.tried attempt))
  | .perform attempt => if socket.dialing.isConnecting then none else socket.write (.perform attempt)
  | .complete index attempt => socket.write (.complete index (socket.tried attempt))
  | .destroy => if socket.writer.destroyed = false then some socket.destroy else none

/-- Whatever happens, the socket is not used after it was deleted. -/
def Safe (socket : LuaSocket Endpoint) : Prop :=
  ∀ events last, run step socket events = some last → last.writer.fault = false

/-- No write is under way, no completion of a read is queued that was not cancelled,
and connecting is over or on its last endpoint. -/
structure Quiet (socket : LuaSocket Endpoint) : Prop where
  writes : socket.writer.waiting = 0
  expired : socket.expired = 0
  readable : socket.readable = 0
  broken : socket.broken = 0
  dialing : socket.dialing.Quiet

end LuaSocket

namespace Writer

variable {writer next : Writer} {op : WriteOp}

theorem startOp_flags {attempt : Attempt} (taken : writer.startOp op attempt = some next) :
    next.fault = writer.fault ∧ next.destroyed = writer.destroyed := by
  simp only [startOp] at taken
  split at taken
  · cases taken
    exact ⟨rfl, rfl⟩
  · split at taken
    · cases taken
      exact ⟨rfl, rfl⟩
    · split at taken
      · cases attempt with
        | wouldBlock | failed =>
            cases taken
            exact ⟨rfl, rfl⟩
        | sent count =>
            obtain ⟨_, rfl⟩ := guarded_step taken
            exact ⟨rfl, rfl⟩
      · cases taken
        exact ⟨rfl, rfl⟩

theorem complete_flags {done : Performed} {attempt : Attempt} (taken : writer.complete done attempt = some next) :
    next.fault = (writer.fault || writer.destroyed) ∧ next.destroyed = writer.destroyed := by
  simp only [complete] at taken
  split at taken
  · cases taken
    exact ⟨rfl, rfl⟩
  · exact startOp_flags taken

/-- On a closed socket every completion can run, whatever it then starts. -/
theorem complete_closed (closed : writer.opened = false) (done : Performed) (attempt : Attempt) :
    ∃ next, writer.complete done attempt = some next := by
  simp only [complete]
  split
  · exact ⟨_, rfl⟩
  · exact ⟨_, if_pos closed⟩

/-- What holds of a socket that may be in use: its writes are accounted for, and there
is nothing to misuse before it was deleted. -/
structure Sound (writer : Writer) : Prop where
  accounts : writer.Accounts []
  deleted : writer.fault = true → writer.destroyed = true

/-- The accounts do not depend on the flags. -/
theorem Accounts.flags (accounts : writer.Accounts []) (opened destroyed fault : Bool) :
    ({ writer with opened := opened, destroyed := destroyed, fault := fault } : Writer).Accounts [] :=
  ⟨accounts.calls, accounts.waiting, accounts.progress, accounts.unsent, accounts.ended, accounts.settled, accounts.tags⟩

theorem Sound.step {event : WriterEvent} (sound : writer.Sound) (taken : writer.step event = some next) : next.Sound := by
  refine ⟨sound.accounts.step taken, ?_⟩
  have deleted := sound.deleted
  cases event with
  | write bytes attempt =>
      simp only [Writer.step, Option.ite_none_left_eq_some] at taken
      obtain ⟨fault, destroyed⟩ := startOp_flags taken.2
      rw [fault, destroyed]
      exact deleted
  | perform attempt =>
      simp only [Writer.step] at taken
      split at taken
      · cases taken
      · cases taken
        exact deleted
      · obtain ⟨_, rfl⟩ := guarded_step taken
        exact deleted
      · cases taken
        exact deleted
  | complete index attempt =>
      simp only [Writer.step] at taken
      split at taken
      · obtain ⟨fault, destroyed⟩ := complete_flags taken
        rw [fault, destroyed, Bool.or_eq_true]
        exact fun either => either.elim deleted id
      · cases taken
  | abort =>
      simp only [Writer.step, Option.ite_none_left_eq_some, Option.some.injEq] at taken
      obtain ⟨_, rfl⟩ := taken
      exact deleted
  | destroy =>
      simp only [Writer.step, Option.ite_none_left_eq_some, Option.some.injEq] at taken
      obtain ⟨_, rfl⟩ := taken
      exact fun _ => rfl

theorem Sound.abort (sound : writer.Sound) : writer.abort.Sound := ⟨sound.accounts.abort, sound.deleted⟩

end Writer

namespace LuaSocket

section

variable {socket next : LuaSocket Endpoint}

theorem touch_sound (sound : socket.writer.Sound) : socket.touch.writer.Sound := by
  refine ⟨sound.accounts.flags _ _ _, fun fault => ?_⟩
  rcases (Bool.or_eq_true _ _).mp fault with before | destroyed
  · exact sound.deleted before
  · exact destroyed

theorem asyncConnect_sound (sound : socket.writer.Sound) (iterator : List Endpoint) :
    (socket.asyncConnect iterator).writer.Sound := ⟨sound.accounts.flags _ _ _, sound.deleted⟩

theorem connectHandler_sound (sound : socket.writer.Sound) (code : ErrorCode) (iterator : List Endpoint) :
    (socket.connectHandler code iterator).writer.Sound := by
  rw [connectHandler.eq_def]
  split
  · exact sound
  · cases iterator with
    | cons endpoint iterator => exact asyncConnect_sound (touch_sound sound).abort iterator
    | nil =>
        simp only
        split
        · exact sound
        · exact (touch_sound sound).abort

theorem arm_writer (socket : LuaSocket Endpoint) : socket.arm.writer = socket.writer := by
  rw [arm]
  split <;> rfl

theorem readHandler_sound (sound : socket.writer.Sound) (received : Received) :
    (socket.readHandler received).writer.Sound := by
  have touched : socket.touch.cancelTimer.writer.Sound := touch_sound sound
  simp only [readHandler]
  split
  · cases received with
    | rest => exact touched
    | part =>
        rw [arm_writer]
        exact touched
    | thrown => exact touched.abort
  · exact touched.abort

theorem write_sound {event : WriterEvent} (sound : socket.writer.Sound) (taken : socket.write event = some next) :
    next.writer.Sound := by
  obtain ⟨writer, stepped, rfl⟩ := Option.map_eq_some_iff.mp taken
  exact sound.step stepped

theorem step_sound {event : SocketEvent Endpoint} (sound : socket.writer.Sound) (taken : socket.step event = some next) :
    next.writer.Sound := by
  cases event with
  | resolve lookup | connect succeeds =>
      simp only [step] at taken
      split at taken
      · cases taken
        exact sound
      · cases taken
  | deliverResolved =>
      simp only [step] at taken
      split at taken
      · rename_i lookup _
        cases taken
        cases lookup with
        | failed => exact (touch_sound sound).abort
        | found first iterator => exact asyncConnect_sound (touch_sound sound) iterator
      · cases taken
  | deliverConnected =>
      simp only [step] at taken
      split at taken
      · cases taken
        exact connectHandler_sound (by exact sound) _ _
      · cases taken
  | read =>
      obtain ⟨_, rfl⟩ := guarded_step taken
      rw [arm_writer]
      exact sound
  | timerExpires | socketReadable | socketError | deliverCancelled =>
      obtain ⟨_, rfl⟩ := guarded_step taken
      exact sound
  | deliverExpired received | deliverReadable received =>
      obtain ⟨_, rfl⟩ := guarded_step taken
      exact readHandler_sound (by exact sound) received
  | deliverBroken =>
      obtain ⟨_, rfl⟩ := guarded_step taken
      exact (touch_sound sound).abort
  | write bytes attempt | complete index attempt => exact write_sound sound taken
  | perform attempt =>
      simp only [step, Option.ite_none_left_eq_some] at taken
      exact write_sound sound taken.2
  | destroy =>
      obtain ⟨_, rfl⟩ := guarded_step taken
      exact ⟨sound.accounts.abort.flags _ _ _, fun _ => rfl⟩

theorem create_sound : (create : LuaSocket Endpoint).writer.Sound :=
  ⟨Writer.Accounts.connected.flags _ _ _, fun fault => absurd fault (by simp [create, Writer.connected])⟩

theorem Safe.step {event : SocketEvent Endpoint} (safe : socket.Safe) (taken : socket.step event = some next) :
    next.Safe := by
  intro events last ran
  exact safe (event :: events) last (by rw [run, taken, Option.bind_some, ran])

/-- A handler that uses the deleted socket is a fault whatever it does then. -/
theorem Safe.unused {event : SocketEvent Endpoint} (safe : socket.Safe) (destroyed : socket.writer.destroyed = true)
    (taken : socket.step event = some next) : next.writer.fault ≠ socket.touch.writer.fault := by
  intro used
  have unharmed := safe.step taken [] next rfl
  simp only [used, touch, destroyed, Bool.or_true, Bool.true_eq_false] at unharmed

theorem readHandler_fault (socket : LuaSocket Endpoint) (received : Received) :
    (socket.readHandler received).writer.fault = socket.touch.writer.fault := by
  simp only [readHandler]
  split
  · cases received with
    | rest | thrown => rfl
    | part =>
        rw [arm_writer]
        rfl
  · rfl

theorem connectHandler_fault (socket : LuaSocket Endpoint) {code : ErrorCode} {iterator : List Endpoint}
    (loud : ¬ (Dialing.connected code iterator).Quiet) :
    (socket.connectHandler code iterator).writer.fault = socket.touch.writer.fault := by
  rw [Dialing.Quiet, not_or, not_and] at loud
  rw [connectHandler.eq_def, if_neg loud.1]
  cases iterator with
  | cons endpoint iterator => rfl
  | nil =>
      have failed : code ≠ .aborted := fun aborted => loud.2 aborted rfl
      simp only [failed, if_false]
      rfl

/-- A deleted socket that nothing is left to use. -/
structure Spent (socket : LuaSocket Endpoint) : Prop where
  destroyed : socket.writer.destroyed = true
  unharmed : socket.writer.fault = false
  unqueued : socket.writer.queue = []
  uncompleted : socket.writer.performed = []
  unarmed : socket.waits = 0 ∧ socket.reads = 0
  expired : socket.expired = 0
  readable : socket.readable = 0
  broken : socket.broken = 0
  undialed : socket.dialing.isConnecting = false
  dialing : socket.dialing.Quiet

theorem Spent.write {event : WriterEvent} (spent : socket.Spent) : socket.write event = none := by
  have none : socket.writer.step event = none := by
    cases event with
    | write bytes attempt | abort | destroy => simp [Writer.step, spent.destroyed]
    | perform attempt => simp [Writer.step, spent.unqueued]
    | complete index attempt => simp [Writer.step, spent.uncompleted]
  rw [LuaSocket.write, none, Option.map_none]

theorem Spent.connectHandler (spent : socket.Spent) {code : ErrorCode} {iterator : List Endpoint}
    (found : socket.dialing = .connected code iterator) :
    LuaSocket.connectHandler { socket with dialing := .idle } code iterator = { socket with dialing := .idle } := by
  have quiet := spent.dialing
  rw [found] at quiet
  rcases quiet with success | ⟨aborted, last⟩
  · rw [connectHandler.eq_def, if_pos success]
  · subst aborted last
    rfl

/-- Only completions that were cancelled, and that of a finished connect, still run. -/
theorem Spent.step {event : SocketEvent Endpoint} (spent : socket.Spent) (taken : socket.step event = some next) :
    next.Spent := by
  have quiet := spent.dialing
  cases event with
  | resolve lookup | deliverResolved =>
      simp only [LuaSocket.step] at taken
      split at taken
      · rename_i found
        rw [found] at quiet
        exact quiet.elim
      · cases taken
  | connect succeeds =>
      simp only [LuaSocket.step] at taken
      split at taken
      · rename_i found
        have undialed := spent.undialed
        rw [found] at undialed
        cases undialed
      · cases taken
  | deliverConnected =>
      simp only [LuaSocket.step] at taken
      split at taken
      · rename_i found
        cases taken
        rw [spent.connectHandler found]
        exact { spent with undialed := rfl, dialing := trivial }
      · cases taken
  | read | destroy =>
      obtain ⟨alive, _⟩ := guarded_step taken
      rw [spent.destroyed] at alive
      cases alive
  | timerExpires =>
      obtain ⟨armed, _⟩ := guarded_step taken
      exact absurd spent.unarmed.1 (Nat.ne_of_gt armed)
  | socketReadable | socketError =>
      obtain ⟨armed, _⟩ := guarded_step taken
      exact absurd spent.unarmed.2 (Nat.ne_of_gt armed)
  | deliverExpired received =>
      obtain ⟨queued, _⟩ := guarded_step taken
      exact absurd spent.expired (Nat.ne_of_gt queued)
  | deliverReadable received =>
      obtain ⟨queued, _⟩ := guarded_step taken
      exact absurd spent.readable (Nat.ne_of_gt queued)
  | deliverBroken =>
      obtain ⟨queued, _⟩ := guarded_step taken
      exact absurd spent.broken (Nat.ne_of_gt queued)
  | deliverCancelled =>
      obtain ⟨_, rfl⟩ := guarded_step taken
      exact { spent with }
  | write bytes attempt | complete index attempt =>
      rw [LuaSocket.step, spent.write] at taken
      cases taken
  | perform attempt =>
      rw [LuaSocket.step, spent.write, ite_self] at taken
      cases taken

theorem Spent.safe (spent : socket.Spent) : socket.Safe := by
  intro events last ran
  exact (run_preserves spent (fun spent taken => spent.step taken) ran).unharmed

theorem Safe.uncompleted (safe : socket.Safe) (destroyed : socket.writer.destroyed = true)
    (closed : socket.writer.opened = false) : socket.writer.performed = [] := by
  cases listed : socket.writer.performed with
  | nil => rfl
  | cons done others =>
      have stillClosed : ({ socket.writer with performed := others } : Writer).opened = false := closed
      obtain ⟨writer, taken⟩ := Writer.complete_closed stillClosed done (socket.tried .failed)
      have stepped : socket.step (.complete 0 .failed) = some { socket with writer := writer } := by
        simp only [LuaSocket.step, write, Writer.step, listed, List.getElem?_cons_zero, List.eraseIdx_cons_zero, taken,
          Option.map_some]
      have faulty : writer.fault = socket.touch.writer.fault := (Writer.complete_flags taken).1
      exact absurd faulty (safe.unused destroyed stepped)

theorem Safe.undelivered (safe : socket.Safe) (destroyed : socket.writer.destroyed = true) :
    socket.expired = 0 ∧ socket.readable = 0 ∧ socket.broken = 0 := by
  refine ⟨?_, ?_, ?_⟩ <;> by_contra queued
  · have stepped : socket.step (.deliverExpired .rest) = _ := if_pos (Nat.pos_of_ne_zero queued)
    exact safe.unused destroyed stepped (readHandler_fault _ _)
  · have stepped : socket.step (.deliverReadable .rest) = _ := if_pos (Nat.pos_of_ne_zero queued)
    exact safe.unused destroyed stepped (readHandler_fault _ _)
  · have stepped : socket.step .deliverBroken = _ := if_pos (Nat.pos_of_ne_zero queued)
    exact safe.unused destroyed stepped rfl

theorem resolved_harms (destroyed : socket.writer.destroyed = true) {lookup : Lookup Endpoint}
    (found : socket.dialing = .resolved lookup) : ¬ socket.Safe := by
  intro safe
  have stepped : socket.step .deliverResolved = some ({ socket with dialing := .idle }.resolveHandler lookup) := by
    simp only [LuaSocket.step, found]
  cases lookup with
  | failed | found first rest => exact safe.unused destroyed stepped rfl

theorem Safe.dialing (safe : socket.Safe) (destroyed : socket.writer.destroyed = true)
    (undialed : socket.dialing.isConnecting = false) : socket.dialing.Quiet := by
  cases found : socket.dialing with
  | idle => trivial
  | resolving =>
      have stepped : socket.step (.resolve .failed) = some { socket with dialing := .resolved .failed } := by
        simp only [LuaSocket.step, found]
      exact absurd (safe.step stepped) (resolved_harms destroyed rfl)
  | resolved lookup => exact absurd safe (resolved_harms destroyed found)
  | connecting iterator =>
      rw [found] at undialed
      cases undialed
  | connected code iterator =>
      by_contra loud
      have stepped : socket.step .deliverConnected =
          some ({ socket with dialing := .idle }.connectHandler code iterator) := by
        simp only [LuaSocket.step, found]
      exact safe.unused destroyed stepped (connectHandler_fault _ loud)

end

theorem cancel_isConnecting (dialing : Dialing Endpoint) : dialing.cancel.isConnecting = false := by
  cases dialing <;> rfl

theorem cancel_quiet_iff (dialing : Dialing Endpoint) : dialing.cancel.Quiet ↔ dialing.Quiet := by
  cases dialing with
  | connecting iterator => simp [Dialing.cancel, Dialing.Quiet]
  | idle | resolving | resolved lookup | connected code iterator => exact Iff.rfl

/-- The writes under way are the completions that `Socket_Destroy` leaves queued. -/
theorem destroy_performed {socket : LuaSocket Endpoint} (accounts : socket.writer.Accounts []) :
    socket.destroy.writer.performed = [] ↔ socket.writer.waiting = 0 := by
  have waiting := accounts.waiting
  rw [List.append_nil, ← (Writer.abort_outstanding socket.writer).length_eq] at waiting
  have performed : socket.writer.waiting = socket.destroy.writer.performed.length := by
    rw [waiting]
    simp [Writer.outstanding, Writer.abort, destroy, Writer.destroy]
  rw [performed, Nat.cast_eq_zero, List.length_eq_zero_iff]

/-- `Socket_Destroy` is safe exactly when nothing that is under way will use the
socket. -/
theorem socketDestroy_safe_iff (events : List (SocketEvent Endpoint)) (reached : LuaSocket Endpoint)
    (ends : run step create events = some reached) (alive : reached.writer.destroyed = false) :
    reached.destroy.Safe ↔ reached.Quiet := by
  have sound : reached.writer.Sound :=
    @run_preserves _ _ step (fun socket => socket.writer.Sound) _ reached events create_sound
      (fun sound taken => step_sound sound taken) ends
  have unharmed : reached.writer.fault = false := by
    cases fault : reached.writer.fault with
    | false => rfl
    | true =>
        rw [sound.deleted fault] at alive
        cases alive
  have undialed : reached.destroy.dialing.isConnecting = false := cancel_isConnecting reached.dialing
  constructor
  · intro safe
    obtain ⟨expired, readable, broken⟩ := safe.undelivered rfl
    exact ⟨(destroy_performed sound.accounts).mp (safe.uncompleted rfl rfl), expired, readable, broken,
      (cancel_quiet_iff reached.dialing).mp (safe.dialing rfl undialed)⟩
  · intro quiet
    have spent : reached.destroy.Spent :=
      ⟨rfl, unharmed, rfl, (destroy_performed sound.accounts).mpr quiet.writes, ⟨rfl, rfl⟩, quiet.expired,
        quiet.readable, quiet.broken, undialed, (cancel_quiet_iff reached.dialing).mpr quiet.dialing⟩
    exact spent.safe

/-- A script that connects at the second endpoint, writes and reads in two parts. -/
def exchange : List (SocketEvent Nat) :=
  [.resolve (.found 1 [2]), .deliverResolved, .connect false, .deliverConnected, .connect true, .deliverConnected,
    .write [1, 2] (.sent 2), .complete 0 .failed, .read, .socketReadable, .deliverReadable .part,
    .socketReadable, .deliverReadable .rest]

theorem socketDestroy_safe_exchange :
    ∃ reached, run step create exchange = some reached ∧ reached.destroy.Safe := by
  refine ⟨_, rfl, (socketDestroy_safe_iff exchange _ rfl rfl).mpr ⟨rfl, rfl, rfl, rfl, trivial⟩⟩

-- The timer runs out before the read is handled, which resumes the script all the same.
example : (run step create ((exchange.dropLast ++ [.timerExpires, .deliverReadable .rest]) ++
    [.destroy, .deliverExpired .thrown])).map (fun socket => socket.writer.fault) = some true := rfl

end LuaSocket

end Webapp.Workers

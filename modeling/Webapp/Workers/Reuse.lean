import Webapp.Workers.Reassembly

namespace Webapp.Workers

open Webapp.Data

/-! A request that was used before, compared with a new one. -/

/-- What can happen to a request: its handler runs, a script that holds it writes
to it, or it is reset.  A script cannot change the size of the vector. -/
inductive Use where
  | call (completion : Completion)
  | script (written : Request)
  | reset

def Request.use (worker : Worker) (request : Request) : Use → Request
  | .call completion => (request.processMsgpackRequest worker completion).1
  | .script written => { written with headers := { written.headers with size := request.headers.size } }
  | .reset => request.reset

/-- What a call shows: its result, what it left in the socket and, when the
request is enqueued, the header and the memory the script gets. -/
structure Observation where
  outcome : Outcome
  unread : List UInt8
  delivered : Option (Int × List UInt8 × Option (List UInt8))
deriving DecidableEq, Repr

def observe (call : Connection × Outcome) : Observation where
  outcome := call.2
  unread := call.1.unread
  delivered :=
    let request := call.1.request
    if call.2 = .enqueued then
      some (request.len, request.headers.cells.window request.data request.len.toNat, request.luaRequest)
    else none

theorem Request.parseLength_room {worker : Worker} {request next : Request} (room : 9 ≤ request.headers.size)
    (parsed : request.parseLength worker = .ok next ∨ request.parseLength worker = .error next) :
    9 ≤ next.headers.size := by
  have parses := request.parseLength_parses worker
  rcases parsed with ok | error
  · rw [ok] at parses
    cases parses with
    | known _ => exact room
    | unparsed _ => exact room
    | located _ _ grown =>
        rcases grown with rfl | wide
        · exact room
        · exact Nat.le_of_lt wide
  · rw [error] at parses
    cases parses with
    | refused _ _ _ => exact room

theorem Request.process_room {worker : Worker} {request : Request} (room : 9 ≤ request.headers.size)
    (chunk : List UInt8) : 9 ≤ (request.process worker chunk).1.headers.size := by
  have kept : 9 ≤ (request.receive chunk).headers.size := room
  rw [process]
  split
  · rename_i next failed
    exact parseLength_room kept (Or.inr failed)
  · rename_i next parsed
    have longer := parseLength_room kept (Or.inl parsed)
    split
    · exact longer
    · exact longer

/-- A vector is made longer than nine bytes or exactly nine, never shorter. -/
theorem Request.use_room {worker : Worker} {request : Request} (room : 9 ≤ request.headers.size) (use : Use) :
    9 ≤ (request.use worker use).headers.size := by
  cases use with
  | call completion =>
      cases completion with
      | success socket =>
          simp only [Request.use, processMsgpackRequest]
          split
          · exact process_room room _
          · exact room
      | aborted => exact room
      | failed => exact room
  | script written => exact room
  | reset => exact (reset_ready room).room

theorem Request.uses_room {worker : Worker} {request : Request} (room : 9 ≤ request.headers.size)
    (uses : List Use) : 9 ≤ (uses.foldl (Request.use worker) request).headers.size := by
  induction uses generalizing request with
  | nil => exact room
  | cons use uses ih => exact ih (use_room room use)

section

variable {worker : Worker} {message : Message} {stream : List UInt8} {taken next : Nat}

theorem Connection.Advances.observe_eq {first second : Connection × Outcome}
    (one : Connection.Advances worker message stream taken next first)
    (other : Connection.Advances worker message stream taken next second) : observe first = observe second := by
  have outcome : first.2 = second.2 := one.outcome.trans other.outcome.symm
  have unread : first.1.unread = second.1.unread := one.unread.trans other.unread.symm
  by_cases enqueued : first.2 = .enqueued
  · obtain ⟨assembled, zeros⟩ := one.enqueued enqueued
    obtain ⟨too, same⟩ := other.enqueued (outcome ▸ enqueued)
    simp [observe, outcome, unread, assembled.len, too.len, assembled.payload, too.payload, zeros, same]
  · simp [observe, unread, enqueued, ← outcome]

/-- Two requests that have taken the same part of a message go on alike. -/
theorem Connection.Assembling.deliver_same {further : List UInt8} {counts : List Nat} {first second : Connection}
    (worker : Worker) (one : first.Assembling message (message.bytes ++ further) taken)
    (other : second.Assembling message (message.bytes ++ further) taken) :
    (first.deliver worker counts).map observe = (second.deliver worker counts).map observe := by
  induction counts generalizing first second taken with
  | nil => rfl
  | cons count counts ih =>
      have ahead := one.advances worker count
      have along := other.advances worker count
      have same := ahead.observe_eq along
      have outcome : (first.step worker (.readable count)).2 = (second.step worker (.readable count)).2 :=
        congrArg Observation.outcome same
      simp only [Connection.deliver, List.map_cons, same, outcome]
      split
      · rename_i rearmed
        rw [ih (ahead.rearmed (outcome.trans rearmed)) (along.rearmed rearmed)]
      · rfl

end

/-- A request that was reset shows the same as a new one whatever happened to it
before, and its vector holds at least nine bytes. -/
theorem reset_like_new (worker : Worker) (uses : List Use) (message : Message) (further : List UInt8)
    (counts : List Nat) :
    let reused := (uses.foldl (Request.use worker) Request.new).reset
    let stream := message.bytes ++ further
    9 ≤ reused.headers.size ∧
      ((Connection.mk reused stream).deliver worker counts).map observe =
        ((Connection.mk Request.new stream).deliver worker counts).map observe ∧
      ∀ call ∈ (Connection.mk reused stream).deliver worker counts, call.2 = .enqueued →
        call.1.request.luaRequest = some (List.replicate worker.requestSize 0) := by
  intro reused stream
  have ready : reused.Ready := Request.reset_ready (Request.uses_room Request.new_ready.room uses)
  refine ⟨ready.room, ?_, ?_⟩
  · exact (ready.assembling message stream).deliver_same worker (Request.new_ready.assembling message stream)
  · intro call member enqueued
    obtain ⟨_, _, advances⟩ := (ready.assembling message stream).deliver worker call member
    exact (advances.enqueued enqueued).2

end Webapp.Workers

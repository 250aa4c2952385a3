import Webapp.Workers.Request

namespace Webapp.Workers

open Webapp.Data Webapp.MsgPack

/-! Where the reads of a request's header go.  The interesting states are the
ones between two calls: a call that leaves a length of zero or below zero behind
makes the next read run over the end of the buffer.
-/

structure ReadCall where
  size : Int
  start : Nat
  capacity : Nat
deriving DecidableEq, Repr

/-- The size is not negative and the range lies inside the vector. -/
def ReadCall.InBounds (read : ReadCall) : Prop :=
  0 ≤ read.size ∧ read.start + read.size ≤ read.capacity

instance (read : ReadCall) : Decidable read.InBounds :=
  inferInstanceAs (Decidable (0 ≤ read.size ∧ read.start + read.size ≤ read.capacity))

def Request.readCall (request : Request) : ReadCall :=
  ⟨request.readSize, request.data + request.ctr, request.headers.size⟩

def Call.reads : Call → Bool
  | .readable _ | .readFails => true
  | .aborted | .failed => false

def Connection.reads (worker : Worker) : Connection → List Call → List ReadCall
  | _, [] => []
  | connection, call :: calls =>
      (if call.reads then [connection.request.readCall] else []) ++
        reads worker (connection.step worker call).1 calls

/-- A decoded length `len`, `offset` bytes long, of which `n` bytes including
what follows it have been received, leaves the next read inside the vector. -/
def LengthUsable (worker : Worker) (request : Request) (len : Int) (offset n : Nat) : Prop :=
  (len = 0 ∧ offset + 9 ≤ request.headers.size) ∨
    (0 < len ∧
      if 9 < len + offset ∧ worker.serves (len + offset).toNat = false then
        n ≤ len ∧ request.data + len ≤ request.headers.size
      else n ≤ len + offset)

def Connection.KeepsBounds (worker : Worker) (connection : Connection) (call : Call) : Prop :=
  ∀ chunk, connection.readResult call = some chunk → connection.request.len = 0 →
    ∀ u64 offset,
      unpackNext (connection.request.received ++ chunk) = some (.positiveInteger u64, offset) →
        LengthUsable worker connection.request (int32 u64) offset (connection.request.ctr + chunk.length)

/-- Every call that another read follows keeps the bounds. -/
def Connection.CallsKeepBounds (worker : Worker) : Connection → List Call → Prop
  | _, [] => True
  | connection, call :: calls =>
      (calls.any Call.reads = true → connection.KeepsBounds worker call) ∧
        CallsKeepBounds worker (connection.step worker call).1 calls

theorem Request.readCall_inBounds_iff (request : Request) :
    request.readCall.InBounds ↔
      request.ctr ≤ request.toRead ∧ request.data + request.toRead ≤ request.headers.size := by
  simp only [ReadCall.InBounds, readCall, readSize]
  push_cast
  omega

theorem Request.Ready.inBounds {request : Request} (ready : request.Ready) :
    request.readCall.InBounds := by
  rw [request.readCall_inBounds_iff, toRead, if_pos ready.len, ready.data, ready.ctr]
  have room := ready.room
  omega

theorem Connection.readResult_limited {connection : Connection} {call : Call} {chunk : List UInt8}
    (returned : connection.readResult call = some chunk) : chunk.length ≤ sizeT connection.request.readSize := by
  cases call with
  | readable count =>
      obtain rfl : (connection.unread.take count).take (sizeT connection.request.readSize) = chunk := by
        simpa [readResult, completion, readSome] using returned
      exact List.length_take_le _ _
  | readFails =>
      simp only [readResult, completion, readSome, Option.ite_none_right_eq_some, Option.some.injEq] at returned
      simp [← returned.2]
  | aborted => simp [readResult, completion] at returned
  | failed => simp [readResult, completion] at returned

theorem Connection.readResult_length {connection : Connection} {call : Call} {chunk : List UInt8}
    (inBounds : connection.request.readCall.InBounds)
    (returned : connection.readResult call = some chunk) :
    connection.request.ctr + chunk.length ≤ connection.request.toRead := by
  have limited := readResult_limited returned
  have nonnegative := inBounds.1
  simp only [Request.readCall, Request.readSize, sizeT] at limited nonnegative
  omega

theorem Request.receive_inBounds {request : Request} {chunk : List UInt8}
    (fits : request.ctr + chunk.length ≤ request.toRead)
    (room : request.data + request.toRead ≤ request.headers.size) :
    (request.receive chunk).readCall.InBounds := by
  have same : (request.receive chunk).toRead = request.toRead := rfl
  have counted := uint16_add_le request.ctr chunk.length
  rw [readCall_inBounds_iff, same]
  refine ⟨?_, room⟩
  simp only [receive]
  omega

theorem Request.process_readCall (worker : Worker) (request : Request) (chunk : List UInt8) :
    (request.process worker chunk).1.readCall =
      match (request.receive chunk).parseLength worker with
      | .error left | .ok left => left.readCall := by
  rw [process]
  cases (request.receive chunk).parseLength worker with
  | error left => rfl
  | ok left =>
      dsimp only
      split <;> rfl

theorem Request.parsed_inBounds_iff {worker : Worker} {request : Request} {chunk : List UInt8}
    {u64 offset : Nat} (unknown : request.len = 0) (room : request.data + 9 ≤ request.headers.size)
    (fits : request.ctr + chunk.length ≤ 9)
    (parsed : unpackNext (request.received ++ chunk) = some (.positiveInteger u64, offset)) :
    (request.process worker chunk).1.readCall.InBounds ↔
      LengthUsable worker request (int32 u64) offset (request.ctr + chunk.length) := by
  have bounds := unpackNext_positiveInteger parsed
  have length : (request.received ++ chunk).length = request.ctr + chunk.length := by simp [received]
  rw [length] at bounds
  rw [← receive_received (by omega)] at parsed
  have counted : (request.receive chunk).ctr = request.ctr + chunk.length := uint16_add (by omega)
  have range := int32_range u64
  rw [process_readCall, parseLength_of_parsed worker (request.receive_len chunk ▸ unknown) parsed, counted,
    uint16_sub bounds.2.2 (by omega)]
  generalize int32 u64 = len at range ⊢
  by_cases negative : len < 0
  · -- Thrown or not, a negative length is what the next read asks for.
    have unusable : ¬ LengthUsable worker request len offset (request.ctr + chunk.length) := by
      rw [LengthUsable]
      omega
    refine iff_of_false ?_ unusable
    split_ifs <;> simp only [readCall_inBounds_iff, toRead] <;> split_ifs <;> omega
  · have total : sizeT (len + offset) = (len + offset).toNat := by
      rw [sizeT]
      omega
    rw [total]
    by_cases zero : len = 0
    · have small : ¬ 9 < (len + offset).toNat := by omega
      rw [if_neg small, readCall_inBounds_iff]
      simp only [toRead, zero, receive_size, LengthUsable]
      simp
      omega
    · have positive : 0 < len := by omega
      by_cases wide : 9 < (len + offset).toNat
      · have widened : 9 < len + offset := by omega
        cases served : worker.serves (len + offset).toNat with
        | true =>
            rw [if_pos wide, if_pos rfl, readCall_inBounds_iff]
            simp only [toRead, zero, if_false, CharVector.resize, LengthUsable, positive, served]
            simp
            omega
        | false =>
            rw [if_pos wide, if_neg (by simp), readCall_inBounds_iff]
            simp [toRead, zero, LengthUsable, positive, widened, served]
      · have narrow : ¬ 9 < len + offset := by omega
        rw [if_neg wide, readCall_inBounds_iff]
        simp only [toRead, zero, if_false, receive_size, LengthUsable, positive, narrow]
        simp
        omega

/-- Whether the state left by a call is in bounds depends only on the length
that the call decodes. -/
theorem Connection.step_inBounds_iff (worker : Worker) {connection : Connection} (call : Call)
    (inBounds : connection.request.readCall.InBounds) :
    (connection.step worker call).1.request.readCall.InBounds ↔ connection.KeepsBounds worker call := by
  rw [step_request]
  cases returned : connection.readResult call with
  | none => simp [KeepsBounds, returned, inBounds]
  | some chunk =>
      have fits := readResult_length inBounds returned
      rw [Request.readCall_inBounds_iff] at inBounds
      by_cases unknown : connection.request.len = 0
      · have nine : connection.request.toRead = 9 := if_pos unknown
        rw [nine] at fits inBounds
        by_cases parsed : ∃ u64 offset, unpackNext (connection.request.received ++ chunk) =
            some (.positiveInteger u64, offset)
        · obtain ⟨u64, offset, parsed⟩ := parsed
          rw [Request.parsed_inBounds_iff unknown (by omega) (by omega) parsed]
          simp [KeepsBounds, returned, unknown, parsed]
        · have unparsed : ∀ u64 offset, unpackNext (connection.request.receive chunk).received ≠
              some (.positiveInteger u64, offset) := by
            intro u64 offset found
            rw [Request.receive_received (by omega)] at found
            exact parsed ⟨u64, offset, found⟩
          refine iff_of_true ?_ (fun other same _ u64 offset found => ?_)
          · rw [Request.process_readCall, Request.parseLength_of_unparsed worker unparsed]
            exact Request.receive_inBounds (nine ▸ fits) (nine ▸ inBounds.2)
          · obtain rfl : chunk = other := by simpa [returned] using same
            exact (parsed ⟨u64, offset, found⟩).elim
      · refine iff_of_true ?_ (fun _ _ impossible => (unknown impossible).elim)
        rw [Request.process_readCall, Request.parseLength_of_known worker (by simpa using unknown)]
        exact Request.receive_inBounds fits inBounds.2

theorem Connection.step_of_not_reads {worker : Worker} {connection : Connection} {call : Call}
    (silent : call.reads = false) : (connection.step worker call).1.request = connection.request := by
  cases call with
  | readable count => simp [Call.reads] at silent
  | readFails => simp [Call.reads] at silent
  | aborted => rfl
  | failed => rfl

theorem Connection.reads_of_none (worker : Worker) (connection : Connection) {calls : List Call}
    (silent : calls.any Call.reads = false) :
    connection.reads worker calls = [] ∧ connection.CallsKeepBounds worker calls := by
  induction calls generalizing connection with
  | nil => exact ⟨rfl, trivial⟩
  | cons call calls ih =>
      simp only [List.any_cons, Bool.or_eq_false_iff] at silent
      obtain ⟨none, keeps⟩ := ih (connection.step worker call).1 silent.2
      refine ⟨by simp [reads, silent.1, none], ?_, keeps⟩
      intro read
      simp [silent.2] at read

theorem Connection.first_read (worker : Worker) (connection : Connection) {calls : List Call}
    (reading : calls.any Call.reads = true) :
    connection.request.readCall ∈ connection.reads worker calls := by
  induction calls generalizing connection with
  | nil => simp at reading
  | cons call calls ih =>
      cases first : call.reads with
      | true => simp [reads, first]
      | false =>
          have later : calls.any Call.reads = true := by simpa [first] using reading
          have found := ih (connection.step worker call).1 later
          rw [step_of_not_reads first] at found
          simpa [reads, first] using found

theorem Connection.reads_inBounds_iff {worker : Worker} {connection : Connection} {calls : List Call}
    (inBounds : connection.request.readCall.InBounds) :
    (∀ read ∈ connection.reads worker calls, read.InBounds) ↔
      connection.CallsKeepBounds worker calls := by
  induction calls generalizing connection with
  | nil => simp [reads, CallsKeepBounds]
  | cons call calls ih =>
      have split : (∀ read ∈ connection.reads worker (call :: calls), read.InBounds) ↔
          ∀ read ∈ (connection.step worker call).1.reads worker calls, read.InBounds := by
        cases first : call.reads with
        | true => simp [reads, first, inBounds]
        | false => simp [reads, first]
      rw [split]
      have next := step_inBounds_iff worker call inBounds
      cases later : calls.any Call.reads with
      | false =>
          obtain ⟨none, keeps⟩ := reads_of_none worker (connection.step worker call).1 later
          simp [none, CallsKeepBounds, later, keeps]
      | true =>
          by_cases keeps : connection.KeepsBounds worker call
          · rw [ih (next.mpr keeps)]
            simp [CallsKeepBounds, keeps]
          · refine iff_of_false ?_ ?_
            · intro all
              exact keeps (next.mp (all _ (first_read _ _ later)))
            · intro all
              exact keeps (all.1 later)

/-- All reads of all calls on a request stay inside its buffer if and only if
no call that is followed by another read decodes an unusable length. -/
theorem receive_inBounds_iff (worker : Worker) (request : Request) (ready : request.Ready)
    (stream : List UInt8) (calls : List Call) :
    (∀ read ∈ (Connection.mk request stream).reads worker calls, read.InBounds) ↔
      (Connection.mk request stream).CallsKeepBounds worker calls :=
  Connection.reads_inBounds_iff ready.inBounds

theorem receive_inBounds_split_length :
    Request.new.Ready ∧
      (Connection.mk Request.new [0xcd, 0x00, 0x02, 0x61, 0x62]).CallsKeepBounds (Worker.unlimited 1)
        [.readable 1, .aborted, .readable 3, .readable 9] :=
  ⟨Request.new_ready,
    (receive_inBounds_iff (Worker.unlimited 1) Request.new Request.new_ready
      [0xcd, 0x00, 0x02, 0x61, 0x62] [.readable 1, .aborted, .readable 3, .readable 9]).mp (by decide)⟩

/-- A length of zero moves the data pointer and is forgotten, so the next read
asks for nine bytes behind the prefix; `0xffffffff` asks for less than none. -/
theorem receive_outOfBounds_zero_length :
    Request.new.Ready ∧
      ¬ (∀ read ∈ (Connection.mk Request.new [0x00, 0x41]).reads (Worker.unlimited 1)
        [.readable 1, .readable 1], read.InBounds) ∧
      ¬ (∀ read ∈ (Connection.mk Request.new [0xce, 0xff, 0xff, 0xff, 0xff, 0x41]).reads
        (Worker.unlimited 1) [.readable 5, .readable 1], read.InBounds) :=
  ⟨Request.new_ready, by decide, by decide⟩

end Webapp.Workers

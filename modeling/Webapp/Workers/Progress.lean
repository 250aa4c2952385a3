import Webapp.Workers.Bounds

namespace Webapp.Workers

open Webapp.Data Webapp.MsgPack

/-! Whether a call gets on with its message.  `read_some` on an empty buffer
returns at once, so that a call which wants no more bytes and has not recognised
the message changes nothing and arms the next one.
-/

def Connection.after (worker : Worker) (connection : Connection) (calls : List Call) : Connection :=
  calls.foldl (fun connection call => (connection.step worker call).1) connection

/-- A success code for a socket with an unread byte, or at its end. -/
def Connection.Offers (connection : Connection) : Call → Prop
  | .readable count => 0 < count ∧ connection.unread ≠ []
  | .readFails => True
  | .aborted | .failed => False

/-- The call takes a byte from the socket or hands the request on. -/
def Connection.Progresses (worker : Worker) (connection : Connection) (call : Call) : Prop :=
  (connection.step worker call).1.unread.length < connection.unread.length ∨
    (connection.step worker call).2 = .enqueued ∨ (connection.step worker call).2 = .recycled

/-- Between two calls: without a length at most nine bytes have been received,
and nine only if they do not begin with one. -/
structure Request.Paced (request : Request) : Prop where
  counted : request.ctr < 65536
  range : -2147483648 ≤ request.len ∧ request.len < 2147483648
  window : request.len = 0 → request.ctr ≤ 9
  unparsed : request.len = 0 → request.ctr = 9 →
    ∀ u64 offset, unpackNext request.received ≠ some (.positiveInteger u64, offset)

theorem Request.Ready.paced {request : Request} (ready : request.Ready) : request.Paced := by
  refine ⟨?_, ?_, ?_, ?_⟩
  · rw [ready.ctr]
    decide
  · rw [ready.len]
    decide
  · intro _
    rw [ready.ctr]
    exact Nat.zero_le 9
  · intro _ full
    rw [ready.ctr] at full
    contradiction

section

variable {worker : Worker} {request next : Request}

theorem Request.parseLength_paced (counted : request.ctr < 65536)
    (range : -2147483648 ≤ request.len ∧ request.len < 2147483648) (window : request.len = 0 → request.ctr ≤ 9)
    (parsed : request.parseLength worker = .ok next ∨ request.parseLength worker = .error next) : next.Paced := by
  have parses := request.parseLength_parses worker
  rcases parsed with ok | error
  · rw [ok] at parses
    cases parses with
    | known known => exact ⟨counted, range, window, fun unknown => absurd unknown known⟩
    | unparsed unparsed => exact ⟨counted, range, window, fun _ _ => unparsed⟩
    | located unknown found _ =>
        -- At least one of the bytes was the length itself.
        have bounds := unpackNext_positiveInteger found
        have few := window unknown
        rw [received, Memory.window_length] at bounds
        have left := uint16_sub bounds.2.2 counted
        refine ⟨uint16_lt _, int32_range _, ?_, ?_⟩
        · intro _
          simp only [left]
          omega
        · intro _ full
          simp only [left] at full
          omega
  · rw [error] at parses
    cases parses with
    | refused unknown found wide =>
        have bounds := unpackNext_positiveInteger found
        refine ⟨counted, int32_range _, fun zero => ?_, fun zero => ?_⟩
        · exact window unknown
        · simp only [sizeT] at wide
          simp only at zero
          omega

theorem Request.Paced.process (paced : request.Paced) {chunk : List UInt8}
    (fits : request.len = 0 → request.ctr + chunk.length ≤ 9) : (request.process worker chunk).1.Paced := by
  have counted : (request.receive chunk).ctr < 65536 := request.receive_ctr_lt chunk
  have window : (request.receive chunk).len = 0 → (request.receive chunk).ctr ≤ 9 := by
    intro unknown
    exact (uint16_add_le request.ctr chunk.length).trans (fits unknown)
  rw [Request.process]
  split
  · rename_i next failed
    exact parseLength_paced counted paced.range window (Or.inr failed)
  · rename_i next parsed
    have paced := parseLength_paced counted paced.range window (Or.inl parsed)
    split
    · exact ⟨paced.counted, paced.range, paced.window, paced.unparsed⟩
    · exact paced

end

section

variable {worker : Worker} {connection : Connection}

theorem Connection.paced_step (paced : connection.request.Paced) (call : Call) :
    (connection.step worker call).1.request.Paced := by
  rw [step_request]
  cases returned : connection.readResult call with
  | none => exact paced
  | some chunk =>
      refine paced.process ?_
      intro unknown
      have limited := readResult_limited returned
      have few := paced.window unknown
      simp only [Request.readSize, Request.toRead, unknown, if_true, sizeT] at limited
      omega

theorem Connection.paced_after (paced : connection.request.Paced) (calls : List Call) :
    (connection.after worker calls).request.Paced := by
  induction calls generalizing connection with
  | nil => exact paced
  | cons call calls ih => exact ih (paced_step paced call)

/-- The read of a call is empty exactly if no more bytes are wanted. -/
theorem Request.Paced.readSize_zero_iff {request : Request} (paced : request.Paced) :
    sizeT request.readSize = 0 ↔ request.toRead = request.ctr := by
  have counted := paced.counted
  have range := paced.range
  simp only [Request.readSize, Request.toRead, sizeT]
  split <;> omega

theorem Request.Paced.receive_nil {request : Request} (paced : request.Paced) : request.receive [] = request := by
  have counted : uint16 (request.ctr + 0) = request.ctr := uint16_add paced.counted
  simp only [Request.receive, Memory.store_nil, List.length_nil, Nat.cast_zero, counted]

theorem Request.Paced.process_nil {request : Request} (paced : request.Paced) (worker : Worker)
    (full : request.toRead = request.ctr) :
    (request.len = 0 ∧ request.ctr = 9 ∧ request.process worker [] = (request, .rearmed)) ∨
      (request.len ≠ 0 ∧ (request.process worker []).2 = .enqueued) := by
  by_cases unknown : request.len = 0
  · have nine : request.ctr = 9 := by
      simp only [Request.toRead, unknown, if_true] at full
      omega
    have parsed := parseLength_of_unparsed worker (paced.unparsed unknown nine)
    refine Or.inl ⟨unknown, nine, ?_⟩
    simp [Request.process, paced.receive_nil, parsed, unknown]
  · have same : request.len = request.ctr := by
      simpa only [Request.toRead, unknown, if_false] using full
    have parsed := parseLength_of_known worker unknown
    refine Or.inr ⟨unknown, ?_⟩
    simp only [Request.process, paced.receive_nil, parsed]
    rw [if_pos (by omega)]

theorem Connection.step_full (worker : Worker) {call : Call} (offers : connection.Offers call)
    (full : sizeT connection.request.readSize = 0) :
    connection.step worker call =
      (⟨(connection.request.process worker []).1, connection.unread⟩, (connection.request.process worker []).2) := by
  cases call with
  | readable count => simp [step_readable, full]
  | readFails => simp [step, completion, readResult, Request.processMsgpackRequest, readSome, full]
  | aborted => exact offers.elim
  | failed => exact offers.elim

theorem Connection.progresses_of_wanted {call : Call} (offers : connection.Offers call)
    (wanted : sizeT connection.request.readSize ≠ 0) : connection.Progresses worker call := by
  cases call with
  | readable count =>
      obtain ⟨some, unread⟩ := offers
      have length := List.length_pos_iff.mpr unread
      refine Or.inl ?_
      simp only [step_readable, List.length_drop, List.length_take]
      omega
  | readFails => exact Or.inr (Or.inr (by simp [step, completion, Request.processMsgpackRequest, readSome, wanted]))
  | aborted => exact offers.elim
  | failed => exact offers.elim

theorem Connection.progresses_iff (paced : connection.request.Paced) {call : Call}
    (offers : connection.Offers call) :
    (connection.Progresses worker call ↔ ¬ (connection.request.len = 0 ∧ connection.request.ctr = 9)) ∧
      (connection.request.len = 0 ∧ connection.request.ctr = 9 →
        connection.step worker call = (connection, .rearmed)) := by
  by_cases full : sizeT connection.request.readSize = 0
  · have same := step_full worker offers full
    rcases paced.process_nil worker (paced.readSize_zero_iff.mp full) with ⟨unknown, nine, stalled⟩ | ⟨known, enqueued⟩
    · rw [stalled] at same
      refine ⟨iff_of_false ?_ (not_not.mpr ⟨unknown, nine⟩), fun _ => same⟩
      rw [Progresses, same]
      simp
    · have unstalled : ¬ (connection.request.len = 0 ∧ connection.request.ctr = 9) := fun stalled => known stalled.1
      refine ⟨iff_of_true (Or.inr (Or.inl ?_)) unstalled, fun stalled => absurd stalled unstalled⟩
      rw [same, enqueued]
  · have unstalled : ¬ (connection.request.len = 0 ∧ connection.request.ctr = 9) := by
      intro stalled
      apply full
      rw [paced.readSize_zero_iff, Request.toRead, if_pos stalled.1, stalled.2]
      rfl
    exact ⟨iff_of_true (progresses_of_wanted offers full) unstalled, fun stalled => absurd stalled unstalled⟩

end

/-- A call on a socket with something to read gets on with the message unless the
nine bytes that can hold a length have been received and hold none; such a call
leaves everything as it was and arms the next one. -/
theorem process_progresses_iff (worker : Worker) (request : Request) (ready : request.Ready)
    (stream : List UInt8) (calls : List Call) (call : Call)
    (offers : ((Connection.mk request stream).after worker calls).Offers call) :
    let connection := (Connection.mk request stream).after worker calls
    (connection.Progresses worker call ↔ ¬ (connection.request.len = 0 ∧ connection.request.ctr = 9)) ∧
      (connection.request.len = 0 ∧ connection.request.ctr = 9 →
        connection.step worker call = (connection, .rearmed)) :=
  Connection.progresses_iff (Connection.paced_after ready.paced calls) offers

/-- Two of five bytes have come, behind the length, and one more is there. -/
theorem process_progresses_amid :
    let connection := (Connection.mk Request.new [0x05, 0x41, 0x42, 0x43, 0x44, 0x45]).after (Worker.unlimited 1)
      [.readable 1, .readable 2]
    connection.request.len = 5 ∧ connection.request.ctr = 2 ∧ connection.unread = [0x43, 0x44, 0x45] ∧
      connection.Progresses (Worker.unlimited 1) (.readable 1) :=
  ⟨by decide, by decide, by decide,
    (process_progresses_iff (Worker.unlimited 1) Request.new Request.new_ready [0x05, 0x41, 0x42, 0x43, 0x44, 0x45]
      [.readable 1, .readable 2] (.readable 1) ⟨Nat.one_pos, by decide⟩).1.mpr (by decide)⟩

/-- Nine times nil is no length: the tenth byte, or the end of the stream, is
never read. -/
theorem process_stalls_nil :
    let connection := (Connection.mk Request.new (List.replicate 10 0xc0)).after (Worker.unlimited 1) [.readable 10]
    connection.unread = [0xc0] ∧ (connection.step (Worker.unlimited 1) (.readable 1)).2 = .rearmed ∧
      ¬ connection.Progresses (Worker.unlimited 1) (.readable 1) ∧
      ¬ connection.Progresses (Worker.unlimited 1) .readFails := by
  intro connection
  have offers : connection.Offers (.readable 1) := ⟨Nat.one_pos, by decide⟩
  have ends : connection.Offers .readFails := trivial
  have paced : connection.request.Paced := Connection.paced_after Request.new_ready.paced _
  have stalled : connection.request.len = 0 ∧ connection.request.ctr = 9 := by decide
  refine ⟨by decide, by decide, ?_, ?_⟩
  · exact (Connection.progresses_iff paced offers).1.not.mpr (not_not.mpr stalled)
  · exact (Connection.progresses_iff paced ends).1.not.mpr (not_not.mpr stalled)

end Webapp.Workers

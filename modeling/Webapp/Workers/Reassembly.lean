import Webapp.MsgPack.Pack
import Webapp.Workers.Request

namespace Webapp.Workers

open Webapp.Data Webapp.MsgPack

/-- A header as it is sent: its length in any of the unsigned forms, then the
payload.  The counter of the socket has sixteen bits. -/
structure Message where
  form : UintForm
  payload : List UInt8
  nonempty : 0 < payload.length
  bounded : payload.length ≤ 65535
  fits : payload.length < form.limit

namespace Message

def bytes (message : Message) : List UInt8 :=
  message.form.encode message.payload.length ++ message.payload

def size (message : Message) : Nat := message.form.size + message.payload.length

def servedBy (worker : Worker) (message : Message) : Bool :=
  message.size ≤ 9 || worker.serves message.size

@[simp] theorem bytes_length (message : Message) : message.bytes.length = message.size := by
  simp [bytes, size]

end Message

/-- The calls for one message when only readiness is delivered: the handler
runs again as long as it re-arms itself. -/
def Connection.deliver (worker : Worker) : Connection → List Nat → List (Connection × Outcome)
  | _, [] => []
  | connection, count :: counts =>
      let result := connection.step worker (.readable count)
      result :: if result.2 = .rearmed then deliver worker result.1 counts else []

/-- What holds of a call whenever the invariant holds before it holds of all calls,
if a call that re-arms keeps the invariant. -/
theorem Connection.deliver_forall {worker : Worker} (Inv : Connection → Prop) {Result : Connection × Outcome → Prop}
    (calls : ∀ connection count, Inv connection → Result (connection.step worker (.readable count)) ∧
      ((connection.step worker (.readable count)).2 = .rearmed → Inv (connection.step worker (.readable count)).1))
    {connection : Connection} (begins : Inv connection) (counts : List Nat) :
    ∀ call ∈ connection.deliver worker counts, Result call := by
  induction counts generalizing connection with
  | nil => simp [Connection.deliver]
  | cons count counts ih =>
      obtain ⟨result, again⟩ := calls connection count begins
      intro call member
      simp only [Connection.deliver, List.mem_cons] at member
      rcases member with rfl | later
      · exact result
      · split at later
        · rename_i rearmed
          exact ih (again rearmed) call later
        · cases later

structure Request.Located (request : Request) (message : Message) (stream : List UInt8)
    (taken : Nat) : Prop where
  stored : request.headers.cells.window 0 taken = stream.take taken
  len : request.len = message.payload.length
  data : request.data = message.form.size
  ctr : message.form.size + request.ctr = taken
  room : message.size ≤ request.headers.size

structure Request.Unlocated (request : Request) (message : Message) (stream : List UInt8)
    (taken : Nat) : Prop where
  stored : request.headers.cells.window 0 taken = stream.take taken
  len : request.len = 0
  data : request.data = 0
  ctr : request.ctr = taken
  cut : taken < message.form.size
  room : 9 ≤ request.headers.size

structure Connection.Assembling (connection : Connection) (message : Message) (stream : List UInt8)
    (taken : Nat) : Prop where
  unread : connection.unread = stream.drop taken
  unfinished : taken < message.size
  phase : connection.request.Unlocated message stream taken ∨
    connection.request.Located message stream taken

structure Connection.Assembled (connection : Connection) (message : Message) (stream : List UInt8)
    (taken : Nat) : Prop where
  unread : connection.unread = stream.drop taken
  finished : message.size ≤ taken
  overread : taken ≤ max 9 message.size
  len : connection.request.len = message.payload.length
  payload : connection.request.headers.cells.window connection.request.data
    message.payload.length = message.payload

section

variable {worker : Worker} {request : Request} {message : Message} {further : List UInt8} {taken : Nat}

theorem Request.Unlocated.readSize
    (unlocated : request.Unlocated message (message.bytes ++ further) taken) :
    sizeT request.readSize = 9 - taken := by
  have small := message.form.size_le
  have cut := unlocated.cut
  simp only [Request.readSize, toRead, unlocated.len, if_true, unlocated.ctr, sizeT]
  omega

theorem Request.Located.readSize (located : request.Located message (message.bytes ++ further) taken)
    (unfinished : taken < message.size) : sizeT request.readSize = message.size - taken := by
  have nonempty := message.nonempty
  have bounded := message.bounded
  have ctr := located.ctr
  have nonzero : (message.payload.length : Int) ≠ 0 := by omega
  simp only [Message.size] at unfinished ⊢
  simp only [Request.readSize, toRead, located.len, nonzero, if_false, sizeT]
  omega

theorem Request.Located.payload (located : request.Located message (message.bytes ++ further) taken)
    (finished : message.size ≤ taken) :
    request.headers.cells.window request.data message.payload.length = message.payload := by
  have whole := congrArg (List.take message.size) located.stored
  rw [Memory.window_take _ finished, List.take_take, Nat.min_eq_left finished,
    List.take_left' message.bytes_length] at whole
  have tail := congrArg (List.drop message.form.size) whole
  rw [Message.size, Memory.window_drop, Message.bytes, List.drop_left' (by simp), Nat.zero_add] at tail
  rw [located.data, tail]

theorem Request.receive_stored {stream : List UInt8} (count : Nat)
    (stored : request.headers.cells.window 0 taken = stream.take taken)
    (place : request.data + request.ctr = taken) :
    (request.receive ((stream.drop taken).take count)).headers.cells.window 0
        (taken + ((stream.drop taken).take count).length) =
      stream.take (taken + ((stream.drop taken).take count).length) := by
  have extended := Memory.window_store_append request.headers.cells 0 taken ((stream.drop taken).take count)
  rw [stored, Nat.zero_add] at extended
  simp only [Request.receive, place, extended]
  rw [List.take_add]
  congr 1
  rw [List.length_take, ← List.take_take, List.take_length]

theorem Request.Located.receive (located : request.Located message (message.bytes ++ further) taken)
    (worker : Worker) (count : Nat)
    (fits : taken + (((message.bytes ++ further).drop taken).take count).length ≤ message.size) :
    ∃ next, (request.receive (((message.bytes ++ further).drop taken).take count)).parseLength worker =
        .ok next ∧
      next.Located message (message.bytes ++ further)
        (taken + (((message.bytes ++ further).drop taken).take count).length) := by
  have nonempty := message.nonempty
  have bounded := message.bounded
  have ctr := located.ctr
  have known : (request.receive (((message.bytes ++ further).drop taken).take count)).len ≠ 0 := by
    rw [receive_len, located.len]
    omega
  refine ⟨_, parseLength_of_known worker known, ?_⟩
  have stored := Request.receive_stored count located.stored (by rw [located.data, ctr])
  generalize ((message.bytes ++ further).drop taken).take count = chunk at *
  have counted : uint16 (request.ctr + chunk.length) = request.ctr + chunk.length :=
    uint16_add (by simp only [Message.size] at fits; omega)
  refine ⟨stored, located.len, located.data, ?_, located.room⟩
  simp only [Request.receive, counted]
  omega

/-- Before the length is known, the bytes of the stream that were read lie at the
start of the vector. -/
theorem Request.Unlocated.receive_received
    (unlocated : request.Unlocated message (message.bytes ++ further) taken) {count : Nat} {chunk : List UInt8}
    (read : ((message.bytes ++ further).drop taken).take count = chunk) (fits : taken + chunk.length ≤ 9) :
    (request.receive chunk).ctr = taken + chunk.length ∧
      (request.receive chunk).headers.cells.window 0 (taken + chunk.length) =
        (message.bytes ++ further).take (taken + chunk.length) ∧
      (request.receive chunk).received = (message.bytes ++ further).take (taken + chunk.length) := by
  have stored := Request.receive_stored count unlocated.stored
    (by rw [unlocated.data, unlocated.ctr, Nat.zero_add])
  rw [read] at stored
  have counted : (request.receive chunk).ctr = taken + chunk.length := by
    have sum : uint16 (taken + chunk.length) = taken + chunk.length := uint16_add (by omega)
    simpa only [Request.receive, unlocated.ctr] using sum
  refine ⟨counted, stored, ?_⟩
  rw [Request.received, receive_data, unlocated.data, counted, stored]

theorem Request.Unlocated.receive
    (unlocated : request.Unlocated message (message.bytes ++ further) taken) (worker : Worker) (count : Nat)
    (fits : taken + (((message.bytes ++ further).drop taken).take count).length ≤ 9) :
    let chunk := ((message.bytes ++ further).drop taken).take count
    (taken + chunk.length < message.form.size ∧ ∃ next, (request.receive chunk).parseLength worker = .ok next ∧
        next.Unlocated message (message.bytes ++ further) (taken + chunk.length)) ∨
      (message.form.size ≤ taken + chunk.length ∧ message.servedBy worker = true ∧
        ∃ next, (request.receive chunk).parseLength worker = .ok next ∧
          next.Located message (message.bytes ++ further) (taken + chunk.length)) ∨
      (message.form.size ≤ taken + chunk.length ∧ message.servedBy worker = false ∧
        ∃ next, (request.receive chunk).parseLength worker = .error next) := by
  intro chunk
  have nonempty := message.nonempty
  have bounded := message.bounded
  have small := message.form.size_le
  change taken + chunk.length ≤ 9 at fits
  have read : ((message.bytes ++ further).drop taken).take count = chunk := rfl
  obtain ⟨counted, stored, received⟩ := unlocated.receive_received read fits
  have object := unpackNext_take_encode message.form message.fits (message.payload ++ further) (taken + chunk.length)
  rw [← List.append_assoc, ← Message.bytes, ← received] at object
  by_cases cut : taken + chunk.length < message.form.size
  · -- The prefix itself is still incomplete.
    rw [if_pos cut] at object
    refine Or.inl ⟨cut, _, parseLength_of_unparsed worker ?_, ⟨stored, unlocated.len, unlocated.data, counted, cut,
      unlocated.room⟩⟩
    simp [object]
  · rw [if_neg cut] at object
    have length : int32 message.payload.length = message.payload.length := int32_of_small (by omega)
    have total : sizeT ((message.payload.length : Int) + message.form.size) = message.size := by
      simp only [sizeT, Message.size]
      omega
    have rebased : uint16 ((taken + chunk.length : Nat) - (message.form.size : Nat)) =
        taken + chunk.length - message.form.size := uint16_sub (by omega) (by omega)
    have parse := Request.parseLength_of_parsed worker (request.receive_len chunk ▸ unlocated.len) object
    rw [length, total, counted, rebased] at parse
    have room := unlocated.room
    have reached : message.form.size ≤ taken + chunk.length := Nat.not_lt.mp cut
    refine Or.inr ?_
    by_cases wide : 9 < message.size
    · rw [if_pos wide] at parse
      cases serves : worker.serves message.size with
      | true =>
          rw [if_pos serves] at parse
          refine Or.inl ⟨reached, by simp [Message.servedBy, serves], _, parse, ?_, rfl, rfl, by dsimp only; omega,
            Nat.le_refl _⟩
          rw [← stored]
          exact CharVector.resize_window (by rw [receive_size]; omega)
      | false =>
          rw [serves, if_neg Bool.false_ne_true] at parse
          exact Or.inr ⟨reached, by simp [Message.servedBy, serves, wide], _, parse⟩
    · rw [if_neg wide] at parse
      refine Or.inl ⟨reached, by simp [Message.servedBy, Nat.not_lt.mp wide], _, parse, stored, rfl, rfl,
        by dsimp only; omega, ?_⟩
      simp only [receive_size]
      omega

theorem Request.Located.process {chunk : List UInt8} {next : Request}
    (parsed : (request.receive chunk).parseLength worker = .ok next)
    (located : next.Located message (message.bytes ++ further) taken) :
    (message.size ≤ taken ∧ request.process worker chunk =
        ({ next with luaRequest := some (List.replicate worker.requestSize 0) }, .enqueued)) ∨
      (taken < message.size ∧ request.process worker chunk = (next, .rearmed)) := by
  have nonempty := message.nonempty
  have ctr := located.ctr
  simp only [Request.process, parsed, located.len, Message.size]
  by_cases finished : message.form.size + message.payload.length ≤ taken
  · exact Or.inl ⟨finished, if_pos (by omega)⟩
  · exact Or.inr ⟨by omega, if_neg (by omega)⟩

/-- The bytes taken after a call that finds `count` bytes: a call asks for nine
bytes in all until the length is known. -/
def Message.nextTaken (message : Message) (stream : List UInt8) (taken count : Nat) : Nat :=
  let limit := if taken < message.form.size then 9 - taken else message.size - taken
  taken + ((stream.drop taken).take (min limit count)).length

def Message.outcome (worker : Worker) (message : Message) (taken next : Nat) : Outcome :=
  if next < message.form.size then .rearmed
  else if taken < message.form.size ∧ message.servedBy worker = false then .recycled
  else if message.size ≤ next then .enqueued
  else .rearmed

/-- A call has got from `taken` to `next`: the message goes on, or it is enqueued
and complete. -/
structure Connection.Advances (worker : Worker) (message : Message) (stream : List UInt8) (taken next : Nat)
    (result : Connection × Outcome) : Prop where
  outcome : result.2 = message.outcome worker taken next
  unread : result.1.unread = stream.drop next
  rearmed : result.2 = .rearmed → result.1.Assembling message stream next
  enqueued : result.2 = .enqueued → result.1.Assembled message stream next ∧
    result.1.request.luaRequest = some (List.replicate worker.requestSize 0)

/-- The call that leaves the length known either completes the message or waits
for more of it. -/
theorem Request.Located.settle {chunk : List UInt8} {located : Request} {next : Nat}
    (overread : next ≤ max 9 message.size) (known : message.form.size ≤ next)
    (served : taken < message.form.size → message.servedBy worker = true)
    (parsed : (request.receive chunk).parseLength worker = .ok located)
    (found : located.Located message (message.bytes ++ further) next) :
    Connection.Advances worker message (message.bytes ++ further) taken next
      (⟨(request.process worker chunk).1, (message.bytes ++ further).drop next⟩,
        (request.process worker chunk).2) := by
  have unfailing : ¬ (taken < message.form.size ∧ message.servedBy worker = false) := by
    intro failing
    simp [served failing.1] at failing
  rcases Request.Located.process parsed found with ⟨finished, result⟩ | ⟨unfinished, result⟩
  · rw [result]
    refine ⟨?_, rfl, fun rearmed => by contradiction, fun _ => ⟨⟨rfl, finished, overread, found.len,
      found.payload finished⟩, rfl⟩⟩
    rw [Message.outcome, if_neg (Nat.not_lt.mpr known), if_neg unfailing, if_pos finished]
  · rw [result]
    refine ⟨?_, rfl, fun _ => ⟨rfl, unfinished, Or.inr found⟩, fun enqueued => by contradiction⟩
    rw [Message.outcome, if_neg (Nat.not_lt.mpr known), if_neg unfailing, if_neg (Nat.not_le.mpr unfinished)]

/-- One readiness call on an unfinished message: it is enqueued exactly when it
has become complete. -/
theorem Connection.Assembling.advances {connection : Connection}
    (assembling : connection.Assembling message (message.bytes ++ further) taken) (worker : Worker) (count : Nat) :
    Connection.Advances worker message (message.bytes ++ further) taken
      (message.nextTaken (message.bytes ++ further) taken count) (connection.step worker (.readable count)) := by
  have unfinished := assembling.unfinished
  have small := message.form.size_le
  obtain ⟨request, unread⟩ := connection
  obtain rfl : unread = (message.bytes ++ further).drop taken := assembling.unread
  rw [step_readable]
  simp only [List.take_take, List.drop_drop, Message.nextTaken]
  have limited (limit : Nat) :
      (((message.bytes ++ further).drop taken).take (min limit count)).length ≤ limit := by
    simp only [List.length_take]
    omega
  rcases assembling.phase with unlocated | located
  · have cut := unlocated.cut
    rw [unlocated.readSize, if_pos cut]
    have fits := limited (9 - taken)
    rcases unlocated.receive worker (min (9 - taken) count) (by omega) with
      ⟨short, next, parsed, still⟩ | ⟨known, served, next, parsed, found⟩ | ⟨known, unserved, next, failed⟩
    · have result : request.process worker (((message.bytes ++ further).drop taken).take
          (min (9 - taken) count)) = (next, .rearmed) := by
        simp [Request.process, parsed, still.len]
      rw [result]
      refine ⟨by rw [Message.outcome, if_pos short], rfl, fun _ => ⟨rfl, ?_, Or.inl still⟩, fun enqueued => by contradiction⟩
      simp only [Message.size]
      omega
    · exact Request.Located.settle (by omega) known (fun _ => served) parsed found
    · have result : request.process worker (((message.bytes ++ further).drop taken).take
          (min (9 - taken) count)) = (next, .recycled) := by
        simp [Request.process, failed]
      rw [result]
      refine ⟨?_, rfl, fun rearmed => by contradiction, fun enqueued => by contradiction⟩
      rw [Message.outcome, if_neg (Nat.not_lt.mpr known), if_pos ⟨cut, unserved⟩]
  · have known : ¬ taken < message.form.size := by
      have ctr := located.ctr
      omega
    rw [located.readSize unfinished, if_neg known]
    have fits := limited (message.size - taken)
    obtain ⟨next, parsed, found⟩ := located.receive worker (min (message.size - taken) count) (by omega)
    exact Request.Located.settle (by omega) (by omega) (fun cut => absurd cut known) parsed found

theorem Connection.Advances.served {next : Nat} {result : Connection × Outcome} {stream : List UInt8}
    (advances : Connection.Advances worker message stream taken next result)
    (served : ∀ size ≤ 65544, worker.serves size = true) :
    (result.2 = .rearmed ∧ result.1.Assembling message stream next) ∨
      (result.2 = .enqueued ∧ result.1.Assembled message stream next) := by
  have small := message.form.size_le
  have bounded := message.bounded
  have able : message.servedBy worker = true := by
    rw [Message.servedBy, served message.size (by simp only [Message.size]; omega), Bool.or_true]
  have outcome := advances.outcome
  simp only [Message.outcome, able, Bool.true_eq_false, and_false, if_false] at outcome
  split at outcome
  · exact Or.inl ⟨outcome, advances.rearmed outcome⟩
  · split at outcome
    · exact Or.inr ⟨outcome, (advances.enqueued outcome).1⟩
    · exact Or.inl ⟨outcome, advances.rearmed outcome⟩

theorem Connection.Assembling.progress {connection : Connection}
    (assembling : connection.Assembling message (message.bytes ++ further) taken) {count : Nat}
    (positive : 0 < count) : taken < message.nextTaken (message.bytes ++ further) taken count := by
  have unfinished := assembling.unfinished
  have small := message.form.size_le
  simp only [Message.nextTaken, List.length_take, List.length_drop, List.length_append, Message.bytes_length]
  split <;> omega

theorem Connection.Assembling.deliver {connection : Connection} {counts : List Nat}
    (assembling : connection.Assembling message (message.bytes ++ further) taken) (worker : Worker) :
    ∀ call ∈ connection.deliver worker counts, ∃ before next,
      Connection.Advances worker message (message.bytes ++ further) before next call := by
  refine Connection.deliver_forall (fun connection => ∃ taken, connection.Assembling message (message.bytes ++ further) taken)
    ?_ ⟨taken, assembling⟩ counts
  intro connection count unfinished
  obtain ⟨taken, assembling⟩ := unfinished
  have advances := assembling.advances worker count
  exact ⟨⟨_, _, advances⟩, fun rearmed => ⟨_, advances.rearmed rearmed⟩⟩

theorem Connection.Assembling.completes {connection : Connection} {counts : List Nat}
    (assembling : connection.Assembling message (message.bytes ++ further) taken)
    (served : ∀ size ≤ 65544, worker.serves size = true) (positive : ∀ count ∈ counts, 0 < count)
    (enough : message.size ≤ taken + counts.length) :
    ∃ call ∈ connection.deliver worker counts, call.2 = .enqueued := by
  induction counts generalizing connection taken with
  | nil =>
      have unfinished := assembling.unfinished
      simp only [List.length_nil] at enough
      omega
  | cons count counts ih =>
      have progress := assembling.progress (positive count List.mem_cons_self)
      simp only [Connection.deliver]
      rcases (assembling.advances worker count).served served with ⟨rearmed, next⟩ | ⟨enqueued, _⟩
      · obtain ⟨call, member, enqueued⟩ := ih next (fun later member => positive later (List.mem_cons_of_mem _ member))
          (by simp only [List.length_cons] at enough; omega)
        exact ⟨call, by simp [rearmed, member], enqueued⟩
      · exact ⟨_, List.mem_cons_self, enqueued⟩

end

theorem Request.Ready.assembling {request : Request} (ready : request.Ready) (message : Message)
    (stream : List UInt8) : (Connection.mk request stream).Assembling message stream 0 := by
  have size := message.form.size_pos
  refine ⟨rfl, by simp only [Message.size]; omega, Or.inl ⟨rfl, ready.len, ready.data, ready.ctr, size, ready.room⟩⟩

/-- Reassembly does not depend on the fragmentation: whatever the counts, every
call re-arms until the first one after which the whole message has been taken,
that call enqueues, and then the payload lies at `headers_buf`. -/
theorem reassembly (worker : Worker) (served : ∀ size ≤ 65544, worker.serves size = true)
    (request : Request) (ready : request.Ready) (message : Message) (further : List UInt8)
    (counts : List Nat) (positive : ∀ count ∈ counts, 0 < count) :
    (∀ call ∈ (Connection.mk request (message.bytes ++ further)).deliver worker counts,
      (call.2 = .enqueued ∨ call.2 = .rearmed) ∧
      (call.2 = .enqueued ↔
        message.size ≤ (message.bytes ++ further).length - call.1.unread.length) ∧
      (call.2 = .enqueued →
        call.1.request.len = message.payload.length ∧
        call.1.request.headers.cells.window call.1.request.data message.payload.length =
          message.payload)) ∧
    (message.size ≤ counts.length →
      ∃ call ∈ (Connection.mk request (message.bytes ++ further)).deliver worker counts,
        call.2 = .enqueued) := by
  have begins := ready.assembling message (message.bytes ++ further)
  refine ⟨?_, fun enough => begins.completes served positive (by omega)⟩
  intro call member
  obtain ⟨_, more, advances⟩ := begins.deliver worker call member
  rcases advances.served served with ⟨rearmed, assembling⟩ | ⟨enqueued, assembled⟩
  · have unfinished := assembling.unfinished
    refine ⟨Or.inr rearmed, ?_, by simp [rearmed]⟩
    simp only [rearmed, assembling.unread, List.length_drop, reduceCtorEq, false_iff]
    omega
  · have finished := assembled.finished
    refine ⟨Or.inl enqueued, ?_, fun _ => ⟨assembled.len, assembled.payload⟩⟩
    simp only [enqueued, assembled.unread, List.length_drop, List.length_append,
      Message.bytes_length, true_iff]
    omega

theorem reassembly_byte_by_byte :
    ∃ call ∈ (Connection.mk Request.new
        ((Message.mk .uint16 [0x61, 0x62, 0x63] (by decide) (by decide) (by decide)).bytes ++ [0x05])).deliver
          (Worker.unlimited 1) [1, 1, 1, 1, 1, 1], call.2 = .enqueued :=
  (reassembly (Worker.unlimited 1) (fun _ => Worker.unlimited_serves) Request.new Request.new_ready
    (Message.mk .uint16 [0x61, 0x62, 0x63] (by decide) (by decide) (by decide)) [0x05]
    [1, 1, 1, 1, 1, 1] (by decide)).2 (by decide)

end Webapp.Workers

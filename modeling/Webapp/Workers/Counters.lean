import Webapp.Workers.Reassembly
import Webapp.Workers.SocketRead

namespace Webapp.Workers

open Webapp.Data Webapp.MsgPack

/-! The sixteen bits of `Socket::ctr` against the lengths it counts up to. -/

/-- The bytes that announce a length, in any form the unpacker takes for a
positive integer. -/
structure Announcement where
  bytes : List UInt8
  value : Nat
  parsed : unpackNext bytes = some (.positiveInteger value, bytes.length)
  positive : 0 < int32 value

namespace Announcement

def length (announcement : Announcement) : Int := int32 announcement.value

def servedBy (worker : Worker) (announcement : Announcement) : Bool :=
  let total := sizeT (announcement.length + announcement.bytes.length)
  total ≤ 9 || worker.serves total

theorem length_range (announcement : Announcement) :
    0 < announcement.length ∧ announcement.length < 2147483648 :=
  ⟨announcement.positive, (int32_range _).2⟩

theorem size_range (announcement : Announcement) :
    1 ≤ announcement.bytes.length ∧ announcement.bytes.length ≤ 9 := by
  obtain ⟨lower, upper, _⟩ := unpackNext_positiveInteger announcement.parsed
  exact ⟨lower, upper⟩

end Announcement

/-- The counter of a request of which `taken` bytes of the stream were read: it
counts from the start of the announcement, and once that is complete from its end. -/
inductive Request.Counts (announcement : Announcement) (stream : List UInt8) (request : Request) (taken : Nat) : Prop
  | announcing (len : request.len = 0) (data : request.data = 0) (ctr : request.ctr = taken)
      (cut : taken < announcement.bytes.length)
      (stored : request.headers.cells.window 0 taken = stream.take taken)
  | announced (len : request.len = announcement.length) (ctr : announcement.bytes.length + request.ctr = taken)

/-- The counter is the number of bytes at the buffer, and the message is handed
over when they are all there. -/
def Connection.CountsExactly (announcement : Announcement) (stream : List UInt8) (call : Connection × Outcome) : Prop :=
  let taken := stream.length - call.1.unread.length
  (if call.1.request.len = 0 then call.1.request.ctr = taken
    else announcement.bytes.length + call.1.request.ctr = taken) ∧
  (announcement.bytes.length + announcement.length ≤ taken → call.2 = .enqueued)

structure Connection.Counting (announcement : Announcement) (stream : List UInt8) (call : Connection × Outcome)
    (taken : Nat) : Prop where
  unread : call.1.unread = stream.drop taken
  arrived : taken ≤ stream.length
  counts : call.1.request.Counts announcement stream taken
  outcome : call.2 =
    if announcement.bytes.length + announcement.length ≤ taken then .enqueued else .rearmed

section

variable {worker : Worker} {announcement : Announcement} {further : List UInt8} {request : Request} {taken : Nat}

theorem Connection.Counting.exactly {stream : List UInt8} {call : Connection × Outcome}
    (counting : Connection.Counting announcement stream call taken) :
    Connection.CountsExactly announcement stream call := by
  have arrived := counting.arrived
  have length := announcement.length_range
  have read : stream.length - call.1.unread.length = taken := by
    rw [counting.unread, List.length_drop]
    omega
  rw [Connection.CountsExactly, read]
  refine ⟨?_, fun whole => counting.outcome.trans (if_pos whole)⟩
  cases counting.counts with
  | announcing len _ ctr => rw [if_pos len, ctr]
  | announced len ctr => rw [if_neg (by rw [len]; omega), ctr]

theorem Request.Counts.parse (served : announcement.servedBy worker = true) (len : request.len = 0)
    (data : request.data = 0) (ctr : request.ctr = taken) (small : taken ≤ 9)
    (stored : request.headers.cells.window 0 taken = (announcement.bytes ++ further).take taken) :
    ∃ next, request.parseLength worker = .ok next ∧
      next.Counts announcement (announcement.bytes ++ further) taken := by
  have received : request.received = (announcement.bytes ++ further).take taken := by
    rw [Request.received, data, ctr, stored]
  have object := unpackNext_take_integer announcement.parsed further taken
  rw [← received] at object
  by_cases cut : taken < announcement.bytes.length
  · rw [if_pos cut] at object
    refine ⟨request, parseLength_of_unparsed worker ?_, .announcing len data ctr cut stored⟩
    simp [object]
  · rw [if_neg cut] at object
    have parse := parseLength_of_parsed worker len object
    have rebased : announcement.bytes.length + uint16 ((taken : Int) - announcement.bytes.length) = taken := by
      rw [uint16_sub (Nat.not_lt.mp cut) (by omega)]
      omega
    rw [ctr] at parse
    rw [Announcement.servedBy, Announcement.length] at served
    generalize sizeT (int32 announcement.value + announcement.bytes.length) = total at parse served
    by_cases wide : 9 < total
    · rw [if_pos wide] at parse
      have serves : worker.serves total = true := by
        simpa [Nat.not_le.mpr wide] using served
      rw [if_pos serves] at parse
      exact ⟨_, parse, .announced rfl rebased⟩
    · rw [if_neg wide] at parse
      exact ⟨_, parse, .announced rfl rebased⟩

theorem Request.Counts.process {chunk : List UInt8} {next : Request}
    (parsed : (request.receive chunk).parseLength worker = .ok next)
    (counts : next.Counts announcement (announcement.bytes ++ further) taken)
    (arrived : taken ≤ (announcement.bytes ++ further).length) :
    Connection.Counting announcement (announcement.bytes ++ further)
      (⟨(request.process worker chunk).1, (announcement.bytes ++ further).drop taken⟩,
        (request.process worker chunk).2) taken := by
  have length := announcement.length_range
  cases counts with
  | announcing len data ctr cut stored =>
      have result : request.process worker chunk = (next, .rearmed) := by
        simp [Request.process, parsed, len]
      rw [result]
      exact ⟨rfl, arrived, .announcing len data ctr cut stored, (if_neg (by omega)).symm⟩
  | announced len ctr =>
      by_cases whole : announcement.bytes.length + announcement.length ≤ taken
      · have result : request.process worker chunk =
            ({ next with luaRequest := some (List.replicate worker.requestSize 0) }, .enqueued) := by
          simp only [Request.process, parsed]
          exact if_pos (by omega)
        rw [result]
        exact ⟨rfl, arrived, .announced len ctr, (if_pos whole).symm⟩
      · have result : request.process worker chunk = (next, .rearmed) := by
          simp only [Request.process, parsed]
          exact if_neg (by omega)
        rw [result]
        exact ⟨rfl, arrived, .announced len ctr, (if_neg whole).symm⟩

/-- As long as the length is unknown the counter stays below ten. -/
theorem Request.Counts.announces (further : List UInt8) (served : announcement.servedBy worker = true)
    (len : request.len = 0) (data : request.data = 0) (ctr : request.ctr = taken)
    (cut : taken < announcement.bytes.length) (arrived : taken ≤ (announcement.bytes ++ further).length)
    (stored : request.headers.cells.window 0 taken = (announcement.bytes ++ further).take taken) (count : Nat) :
    Connection.Counting announcement (announcement.bytes ++ further)
      ((Connection.mk request ((announcement.bytes ++ further).drop taken)).step worker (.readable count))
      (taken + min (min (9 - taken) count) ((announcement.bytes ++ further).length - taken)) := by
  have size := announcement.size_range
  have wanted : sizeT request.readSize = 9 - taken := by
    simp only [Request.readSize, toRead, len, if_true, ctr, sizeT]
    omega
  rw [Connection.step_readable]
  simp only [wanted, List.take_take, List.drop_drop]
  have after := Request.receive_stored (min (9 - taken) count) stored (by rw [data, ctr, Nat.zero_add])
  generalize chunkIs : ((announcement.bytes ++ further).drop taken).take (min (9 - taken) count) = chunk at *
  have length : chunk.length = min (min (9 - taken) count) ((announcement.bytes ++ further).length - taken) := by
    rw [← chunkIs, List.length_take, List.length_drop]
  have counted : (request.receive chunk).ctr = taken + chunk.length := by
    have sum : uint16 (taken + chunk.length) = taken + chunk.length := uint16_add (by omega)
    simpa only [Request.receive, ctr] using sum
  obtain ⟨next, parsed, counts⟩ := Request.Counts.parse served ((request.receive_len chunk).trans len)
    ((request.receive_data chunk).trans data) counted (by omega) after
  rw [← length]
  exact Request.Counts.process parsed counts (by omega)

theorem Request.Counts.known (len : request.len = announcement.length)
    (ctr : announcement.bytes.length + request.ctr = taken) (bounded : announcement.length ≤ 65535)
    (unfinished : taken < announcement.bytes.length + announcement.length)
    (arrived : taken ≤ (announcement.bytes ++ further).length) (worker : Worker) (count : Nat) :
    ∃ next, Connection.Counting announcement (announcement.bytes ++ further)
        ((Connection.mk request ((announcement.bytes ++ further).drop taken)).step worker (.readable count)) next := by
  have length := announcement.length_range
  have known : request.len ≠ 0 := by
    rw [len]
    omega
  have wanted : (sizeT request.readSize : Int) = announcement.bytes.length + announcement.length - taken := by
    simp only [Request.readSize, toRead, len, sizeT]
    omega
  rw [Connection.step_readable]
  simp only [List.take_take, List.drop_drop]
  generalize chunkIs : ((announcement.bytes ++ further).drop taken).take (min (sizeT request.readSize) count) = chunk
  have room : chunk.length ≤ sizeT request.readSize ∧ chunk.length ≤ (announcement.bytes ++ further).length - taken := by
    rw [← chunkIs, List.length_take, List.length_drop]
    omega
  have sum : uint16 (request.ctr + chunk.length) = request.ctr + chunk.length := uint16_add (by omega)
  have counted : announcement.bytes.length + (request.receive chunk).ctr = taken + chunk.length := by
    simp only [Request.receive, sum]
    omega
  have parsed : (request.receive chunk).parseLength worker = .ok (request.receive chunk) :=
    parseLength_of_known worker known
  exact ⟨taken + chunk.length, Request.Counts.process parsed (.announced len counted) (by omega)⟩

structure Connection.Waiting (announcement : Announcement) (stream : List UInt8) (taken : Nat)
    (connection : Connection) : Prop where
  unread : connection.unread = stream.drop taken
  arrived : taken ≤ stream.length
  counts : connection.request.Counts announcement stream taken
  unfinished : taken < announcement.bytes.length + announcement.length

theorem Connection.Waiting.step {connection : Connection}
    (waiting : connection.Waiting announcement (announcement.bytes ++ further) taken)
    (served : announcement.servedBy worker = true) (bounded : announcement.length ≤ 65535) (count : Nat) :
    ∃ next, Connection.Counting announcement (announcement.bytes ++ further)
      (connection.step worker (.readable count)) next := by
  obtain ⟨unread, arrived, counts, unfinished⟩ := waiting
  obtain ⟨request, _⟩ := connection
  subst unread
  cases counts with
  | announcing len data ctr cut stored =>
      exact ⟨_, Request.Counts.announces further served len data ctr cut arrived stored count⟩
  | announced len ctr => exact Request.Counts.known len ctr bounded unfinished arrived worker count

theorem Connection.Counting.waiting {stream : List UInt8} {call : Connection × Outcome}
    (counting : Connection.Counting announcement stream call taken) (rearmed : call.2 = .rearmed) :
    call.1.Waiting announcement stream taken := by
  refine ⟨counting.unread, counting.arrived, counting.counts, ?_⟩
  by_contra whole
  rw [counting.outcome, if_pos (Int.not_lt.mp whole)] at rearmed
  cases rearmed

theorem Connection.Waiting.deliver {connection : Connection}
    (waiting : connection.Waiting announcement (announcement.bytes ++ further) taken)
    (served : announcement.servedBy worker = true) (bounded : announcement.length ≤ 65535) (counts : List Nat) :
    ∀ call ∈ connection.deliver worker counts, ∃ taken,
      Connection.Counting announcement (announcement.bytes ++ further) call taken := by
  refine Connection.deliver_forall
    (fun connection => ∃ taken, connection.Waiting announcement (announcement.bytes ++ further) taken)
    ?_ ⟨taken, waiting⟩ counts
  intro connection count unfinished
  obtain ⟨taken, waiting⟩ := unfinished
  obtain ⟨next, counting⟩ := waiting.step served bounded count
  exact ⟨⟨next, counting⟩, fun rearmed => ⟨next, counting.waiting rearmed⟩⟩

theorem Request.Counts.wraps (len : request.len = announcement.length) (ctr : request.ctr = 0)
    (long : 65535 < announcement.length) {payload : List UInt8} (full : payload.length = 65536) (worker : Worker) :
    ∃ next, (Connection.mk request payload).step worker (.readable 65536) = (⟨next, []⟩, .rearmed) ∧
      next.len = announcement.length ∧ next.ctr = 0 := by
  have length := announcement.length_range
  have wanted : 65536 ≤ sizeT request.readSize := by
    simp only [Request.readSize, toRead, len, ctr, sizeT]
    omega
  have known : request.len ≠ 0 := by
    rw [len]
    omega
  have received : (request.receive payload).ctr = 0 := by
    simp only [Request.receive, ctr, full]
    rfl
  have parsed : (request.receive payload).parseLength worker = .ok (request.receive payload) :=
    parseLength_of_known worker known
  have processed : request.process worker payload = (request.receive payload, .rearmed) := by
    simp only [Request.process, parsed]
    rw [if_neg]
    rw [receive_len, len, received]
    omega
  refine ⟨request.receive payload, ?_, len, received⟩
  rw [Connection.step_readable]
  simp only
  rw [List.take_of_length_le (Nat.le_of_eq full), List.take_of_length_le (full ▸ wanted), processed, List.drop_length]

theorem Request.Ready.waiting (ready : request.Ready) (stream : List UInt8) :
    (Connection.mk request stream).Waiting announcement stream 0 := by
  have size := announcement.size_range
  have length := announcement.length_range
  exact ⟨rfl, Nat.zero_le _, .announcing ready.len ready.data ready.ctr size.1 rfl, by omega⟩

/-- A message longer than the counter can count: it is taken for one that has
just begun. -/
theorem Request.Ready.overflows (ready : request.Ready) (served : announcement.servedBy worker = true)
    (long : 65535 < announcement.length) {payload : List UInt8} (full : payload.length = 65536) :
    ∃ next, (Connection.mk next [], Outcome.rearmed) ∈
        (Connection.mk request (announcement.bytes ++ payload)).deliver worker [announcement.bytes.length, 65536] ∧
      next.len = announcement.length ∧ next.ctr = 0 := by
  have size := announcement.size_range
  have first := Request.Counts.announces payload served ready.len ready.data ready.ctr size.1
    (Nat.zero_le _) rfl announcement.bytes.length
  have reached : 0 + min (min (9 - 0) announcement.bytes.length) ((announcement.bytes ++ payload).length - 0) =
      announcement.bytes.length := by
    rw [List.length_append]
    omega
  rw [reached, List.drop_zero] at first
  have short : ¬ announcement.bytes.length + announcement.length ≤ (announcement.bytes.length : Int) := by omega
  have rearmed := first.outcome.trans (if_neg short)
  have unread := first.unread
  rw [List.drop_left] at unread
  obtain ⟨next, wrapped, len, ctr⟩ : ∃ next, ((Connection.mk request (announcement.bytes ++ payload)).step worker
      (.readable announcement.bytes.length)).1.step worker (.readable 65536) = (⟨next, []⟩, .rearmed) ∧
      next.len = announcement.length ∧ next.ctr = 0 := by
    generalize (Connection.mk request (announcement.bytes ++ payload)).step worker
      (.readable announcement.bytes.length) = result at *
    obtain ⟨⟨located, _⟩, _⟩ := result
    subst unread
    cases first.counts with
    | announcing _ _ _ cut => exact absurd cut (Nat.lt_irrefl _)
    | announced len ctr => exact Request.Counts.wraps len (by omega) long full worker
  refine ⟨next, ?_, len, ctr⟩
  rw [Connection.deliver]
  simp only [rearmed, if_true, Connection.deliver, wrapped]
  simp

end

namespace Transfer

def CountsExactly (bytes : Int) (stream : List UInt8) (call : Transfer × ReadOutcome) : Prop :=
  let taken := stream.length - call.1.unread.length
  call.1.reading.ctr = taken ∧ (bytes ≤ taken → call.2 = .enqueued)

theorem Reached.exactly {bytes taken : Nat} {stream : List UInt8} {call : Transfer × ReadOutcome}
    (reached : Reached bytes stream call taken) : CountsExactly bytes stream call := by
  have within := reached.filling.within
  have arrived := reached.filling.arrived
  have read : stream.length - call.1.unread.length = taken := by
    rw [reached.filling.unread, List.length_drop]
    omega
  rw [CountsExactly, read]
  exact ⟨reached.filling.ctr, fun whole => reached.outcome.trans (if_pos (by omega))⟩

theorem overflows (memory : Memory UInt8) {bytes : Int} (long : 65535 < bytes) (int : bytes < 2147483648)
    {stream : List UInt8} (full : stream.length = 65536) :
    ∃ data, (Transfer.mk ⟨data, bytes, 0⟩ [], ReadOutcome.rearmed) ∈
      (Transfer.mk ⟨memory, bytes, 0⟩ stream).deliver [65536] := by
  have wanted : 65536 ≤ sizeT (Reading.mk memory bytes 0).readSize := by
    simp only [Reading.readSize, sizeT]
    omega
  have chunk : (stream.take 65536).take (sizeT (Reading.mk memory bytes 0).readSize) = stream := by
    rw [List.take_of_length_le (Nat.le_of_eq full), List.take_of_length_le (full ▸ wanted)]
  have counter : uint16 ((0 : Nat) + (stream.length : Nat)) = 0 := by
    rw [full]
    rfl
  have called : (Transfer.mk ⟨memory, bytes, 0⟩ stream).readable 65536 =
      (⟨⟨memory.store 0 stream, bytes, 0⟩, []⟩, .rearmed) := by
    simp only [Transfer.readable, Reading.readHandler, readSome, chunk, Option.getD_some, List.drop_length,
      Reading.receive, counter]
    rw [if_neg (by omega)]
  refine ⟨memory.store 0 stream, ?_⟩
  simp only [Transfer.deliver, called]
  simp

theorem countsExactly_iff {memory : Memory UInt8} {bytes : Int} {reading : Reading} (int : bytes < 2147483648)
    (started : startRead memory bytes = some reading) :
    (∀ stream counts, ∀ call ∈ (Transfer.mk reading stream).deliver counts, CountsExactly bytes stream call) ↔
      bytes ≤ 65535 := by
  simp only [startRead] at started
  split at started
  · contradiction
  rename_i nonnegative
  cases started
  constructor
  · intro exactly
    by_contra long
    obtain ⟨data, member⟩ := overflows memory (Int.not_le.mp long) int (List.length_replicate (n := 65536) (a := 0))
    have counted := (exactly _ _ _ member).1
    simp only [List.length_replicate, List.length_nil] at counted
    omega
  · intro bounded stream counts call member
    obtain ⟨count, rfl⟩ := Int.eq_ofNat_of_zero_le (Int.not_lt.mp nonnegative)
    obtain ⟨taken, reached⟩ := (Filling.start memory count stream).deliver (by omega) counts call member
    exact reached.exactly

end Transfer

theorem Request.Ready.countsExactly_iff {worker : Worker} {announcement : Announcement} {request : Request}
    (ready : request.Ready) (served : announcement.servedBy worker = true) :
    (∀ payload counts, ∀ call ∈ (Connection.mk request (announcement.bytes ++ payload)).deliver worker counts,
      Connection.CountsExactly announcement (announcement.bytes ++ payload) call) ↔ announcement.length ≤ 65535 := by
  constructor
  · intro exactly
    by_contra long
    have size := announcement.size_range
    have length := announcement.length_range
    obtain ⟨next, member, len, ctr⟩ := ready.overflows served (Int.not_le.mp long)
      (List.length_replicate (n := 65536) (a := 0))
    have counted := (exactly _ _ _ member).1
    simp only [len, ctr, List.length_append, List.length_replicate, List.length_nil] at counted
    rw [if_neg (by omega)] at counted
    omega
  · intro bounded payload counts call member
    obtain ⟨taken, counting⟩ := (ready.waiting _).deliver served bounded counts call member
    exact counting.exactly

/-- Both loops count right, whatever the fragmentation, exactly if the length fits
the counter. -/
theorem counters_exact_iff (worker : Worker) :
    (∀ (announcement : Announcement) (request : Request), announcement.servedBy worker = true → request.Ready →
      ((∀ payload counts, ∀ call ∈ (Connection.mk request (announcement.bytes ++ payload)).deliver worker counts,
          Connection.CountsExactly announcement (announcement.bytes ++ payload) call) ↔
        announcement.length ≤ 65535)) ∧
    (∀ (memory : Memory UInt8) (bytes : Int) (reading : Reading), bytes < 2147483648 →
      startRead memory bytes = some reading →
      ((∀ stream counts, ∀ call ∈ (Transfer.mk reading stream).deliver counts,
          Transfer.CountsExactly bytes stream call) ↔ bytes ≤ 65535)) :=
  ⟨fun _ _ served ready => ready.countsExactly_iff served, fun _ _ _ int started => Transfer.countsExactly_iff int started⟩

def fiveBytes : Announcement := ⟨[0x05], 5, rfl, by decide⟩

theorem counters_exact_five :
    (∀ payload counts, ∀ call ∈ (Connection.mk Request.new (fiveBytes.bytes ++ payload)).deliver
      (Worker.unlimited 1) counts, Connection.CountsExactly fiveBytes (fiveBytes.bytes ++ payload) call) ∧
    (∀ stream counts, ∀ call ∈ (Transfer.mk ⟨fun _ => 0, 5, 0⟩ stream).deliver counts,
      Transfer.CountsExactly 5 stream call) := by
  obtain ⟨header, read⟩ := counters_exact_iff (Worker.unlimited 1)
  exact ⟨(header fiveBytes Request.new (by decide) Request.new_ready).mpr (by decide),
    (read (fun _ => 0) 5 _ (by decide) rfl).mpr (by decide)⟩

/-- 65536 as a `uint 32`. -/
def wideBytes : Announcement := ⟨[0xce, 0x00, 0x01, 0x00, 0x00], 65536, rfl, by decide⟩

/-- All 65536 bytes have arrived, and both loops wait for as many again. -/
theorem counters_wrap :
    (∃ next, (Connection.mk next [], Outcome.rearmed) ∈
        (Connection.mk Request.new (wideBytes.bytes ++ List.replicate 65536 0)).deliver (Worker.unlimited 1) [5, 65536] ∧
      next.len = 65536 ∧ next.ctr = 0) ∧
    (∃ data, (Transfer.mk ⟨data, 65536, 0⟩ [], ReadOutcome.rearmed) ∈
      (Transfer.mk ⟨fun _ => 0, 65536, 0⟩ (List.replicate 65536 0)).deliver [65536]) := by
  have full : (List.replicate 65536 (0 : UInt8)).length = 65536 := List.length_replicate
  generalize List.replicate 65536 (0 : UInt8) = payload at full
  have length : wideBytes.length = 65536 := by decide
  have served : wideBytes.servedBy (Worker.unlimited 1) = true := by decide
  have long : 65535 < wideBytes.length := by
    rw [length]
    decide
  obtain ⟨next, member, len, ctr⟩ := Request.new_ready.overflows served long full
  exact ⟨⟨next, member, len.trans length, ctr⟩, Transfer.overflows (fun _ => 0) (by decide) (by decide) full⟩

end Webapp.Workers

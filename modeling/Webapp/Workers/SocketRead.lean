import Webapp.Workers.Request

namespace Webapp.Workers

open Webapp.Data

/-! `Socket_Read` on a client socket: `start_read` arms the first operations and
`read_handler` runs for each of their completions until the bytes are there.
-/

structure Reading where
  data : Memory UInt8
  len : Int
  ctr : Nat

inductive ReadOutcome where
  | ignored
  | rearmed
  | enqueued
  | failed
deriving DecidableEq, Repr

/-- The output `start_read` makes in memory as `new` returns it; a negative size
throws. -/
def startRead (memory : Memory UInt8) (bytes : Int) : Option Reading :=
  if bytes < 0 then none else some ⟨memory, bytes, 0⟩

namespace Reading

def readSize (reading : Reading) : Int := reading.len - reading.ctr

/-- `n += socket.read_some(buffer(output->data + n, output->len - n))` for the
bytes that the socket returns. -/
def receive (reading : Reading) (chunk : List UInt8) : Reading :=
  { reading with
    data := reading.data.store reading.ctr chunk
    ctr := uint16 (reading.ctr + chunk.length) }

/-- A failed read leaves an empty output; nothing resumes the request. -/
def fail (reading : Reading) : Reading := { reading with len := 0 }

def readHandler (reading : Reading) : Completion → Reading × ReadOutcome
  | .success socket =>
      match readSome (sizeT reading.readSize) socket with
      | some chunk =>
          let reading := reading.receive chunk
          (reading, if reading.ctr = reading.len then .enqueued else .rearmed)
      | none => (reading.fail, .failed)
  | .failed => (reading.fail, .failed)
  | .aborted => (reading, .ignored)

end Reading

structure Transfer where
  reading : Reading
  unread : List UInt8

namespace Transfer

def readable (transfer : Transfer) (count : Nat) : Transfer × ReadOutcome :=
  let socket := SocketRead.bytes (transfer.unread.take count)
  let taken := (readSome (sizeT transfer.reading.readSize) socket).getD []
  let result := transfer.reading.readHandler (.success socket)
  (⟨result.1, transfer.unread.drop taken.length⟩, result.2)

def deliver : Transfer → List Nat → List (Transfer × ReadOutcome)
  | _, [] => []
  | transfer, count :: counts =>
      let result := transfer.readable count
      result :: if result.2 = .rearmed then deliver result.1 counts else []

structure Filling (transfer : Transfer) (bytes : Nat) (stream : List UInt8) (taken : Nat) : Prop where
  unread : transfer.unread = stream.drop taken
  len : transfer.reading.len = bytes
  ctr : transfer.reading.ctr = taken
  stored : transfer.reading.data.window 0 taken = stream.take taken
  within : taken ≤ bytes
  arrived : taken ≤ stream.length

section

variable {transfer : Transfer} {bytes taken : Nat} {stream : List UInt8}

theorem Filling.start (memory : Memory UInt8) (bytes : Nat) (stream : List UInt8) :
    Filling ⟨⟨memory, bytes, 0⟩, stream⟩ bytes stream 0 :=
  ⟨rfl, rfl, rfl, rfl, Nat.zero_le _, Nat.zero_le _⟩

def nextTaken (bytes : Nat) (stream : List UInt8) (taken count : Nat) : Nat :=
  taken + min (bytes - taken) (min count (stream.length - taken))

theorem Filling.readSize (filling : transfer.Filling bytes stream taken)
    (representable : bytes < 18446744073709551616) : sizeT transfer.reading.readSize = bytes - taken := by
  have within := filling.within
  simp only [Reading.readSize, filling.len, filling.ctr, sizeT]
  omega

/-- A call takes what is there and wanted.  As long as the counter can hold that,
the call ends the read exactly if nothing more is wanted. -/
theorem Filling.readable (filling : transfer.Filling bytes stream taken) (count : Nat)
    (representable : bytes < 18446744073709551616) (counted : nextTaken bytes stream taken count < 65536) :
    (transfer.readable count).1.Filling bytes stream (nextTaken bytes stream taken count) ∧
      (transfer.readable count).2 =
        if nextTaken bytes stream taken count = bytes then .enqueued else .rearmed := by
  have within := filling.within
  have arrived := filling.arrived
  obtain ⟨⟨data, len, ctr⟩, unread⟩ := transfer
  obtain rfl : unread = stream.drop taken := filling.unread
  obtain rfl : len = bytes := filling.len
  obtain rfl : ctr = taken := filling.ctr
  have size := filling.readSize representable
  generalize chunkIs : ((stream.drop ctr).take count).take (bytes - ctr) = chunk
  have length : ctr + chunk.length = nextTaken bytes stream ctr count := by
    rw [← chunkIs]
    simp only [nextTaken, List.length_take, List.length_drop]
  have sum : uint16 (ctr + chunk.length) = ctr + chunk.length := uint16_add (length ▸ counted)
  have next : stream.take (ctr + chunk.length) = stream.take ctr ++ chunk := by
    rw [List.take_add, ← chunkIs, List.take_take, List.length_take, ← List.take_take, List.take_length]
  have called : Transfer.readable ⟨⟨data, bytes, ctr⟩, stream.drop ctr⟩ count =
      (⟨⟨data.store ctr chunk, bytes, ctr + chunk.length⟩, stream.drop (ctr + chunk.length)⟩,
        if ctr + chunk.length = bytes then .enqueued else .rearmed) := by
    simp only [Transfer.readable, Reading.readHandler, readSome, size, chunkIs, Reading.receive, sum,
      Option.getD_some, List.drop_drop, Nat.cast_inj]
  rw [called, ← length]
  refine ⟨⟨rfl, rfl, rfl, ?_, ?_, ?_⟩, rfl⟩
  · have extended := Memory.window_store_append data 0 ctr chunk
    rw [Nat.zero_add, filling.stored] at extended
    rw [extended, next]
  · simp only [length, nextTaken]
    omega
  · simp only [length, nextTaken]
    omega

theorem nextTaken_le (within : taken ≤ bytes) (stream : List UInt8) (count : Nat) : nextTaken bytes stream taken count ≤ bytes := by
  simp only [nextTaken]
  omega

structure Reached (bytes : Nat) (stream : List UInt8) (call : Transfer × ReadOutcome) (taken : Nat) : Prop where
  filling : call.1.Filling bytes stream taken
  outcome : call.2 = if taken = bytes then .enqueued else .rearmed

theorem Filling.deliver (filling : transfer.Filling bytes stream taken) (small : bytes ≤ 65535) (counts : List Nat) :
    ∀ call ∈ transfer.deliver counts, ∃ taken, Reached bytes stream call taken := by
  induction counts generalizing transfer taken with
  | nil => simp [Transfer.deliver]
  | cons count counts ih =>
      have bound := nextTaken_le filling.within stream count
      obtain ⟨next, outcome⟩ := filling.readable count (by omega) (by omega)
      intro call member
      simp only [Transfer.deliver] at member
      rcases List.mem_cons.mp member with rfl | later
      · exact ⟨_, next, outcome⟩
      · split at later
        · exact ih next call later
        · contradiction

theorem deliver_enqueued_le (transfer : Transfer) (counts : List Nat) :
    (transfer.deliver counts).countP (fun call => call.2 = .enqueued) ≤ 1 := by
  induction counts generalizing transfer with
  | nil => exact Nat.zero_le 1
  | cons count counts ih =>
      simp only [Transfer.deliver, List.countP_cons]
      split
      · rename_i rearmed
        simpa [rearmed] using ih _
      · simp only [List.countP_nil]
        split <;> omega

theorem Filling.completes (filling : transfer.Filling bytes stream taken) (small : bytes ≤ 65535)
    {counts : List Nat} (some : counts ≠ []) (available : bytes ≤ stream.length)
    (enough : bytes ≤ taken + counts.sum) : ∃ call ∈ transfer.deliver counts, call.2 = .enqueued := by
  induction counts generalizing transfer taken with
  | nil => exact absurd rfl some
  | cons count counts ih =>
      have within := filling.within
      have bound := nextTaken_le within stream count
      obtain ⟨next, outcome⟩ := filling.readable count (by omega) (by omega)
      simp only [Transfer.deliver]
      by_cases whole : nextTaken bytes stream taken count = bytes
      · rw [if_pos whole] at outcome
        exact ⟨_, List.mem_cons_self, outcome⟩
      · rw [if_neg whole] at outcome
        -- Nothing was left in the socket, so the rest of the calls bring the rest.
        have advanced : nextTaken bytes stream taken count = taken + count := by
          simp only [nextTaken] at whole ⊢
          omega
        rw [List.sum_cons] at enough
        have more : counts ≠ [] := by
          intro empty
          rw [empty, List.sum_nil] at enough
          omega
        obtain ⟨call, member, enqueued⟩ := ih next more (by omega)
        exact ⟨call, by simp [outcome, member], enqueued⟩

end

end Transfer

/-- Whatever the chunks, the request is resumed by the first call after which all
the bytes have arrived, with exactly those in the output, and only by that one. -/
theorem socketRead_exact (bytes : Nat) (small : bytes ≤ 65535) (memory : Memory UInt8) (stream : List UInt8)
    (counts : List Nat) :
    ∃ reading, startRead memory bytes = some reading ∧
      (∀ call ∈ (Transfer.mk reading stream).deliver counts, ∃ taken ≤ bytes,
        call.1.unread = stream.drop taken ∧ taken ≤ stream.length ∧
        call.2 = (if taken = bytes then .enqueued else .rearmed) ∧
        (call.2 = .enqueued → call.1.reading.len = bytes ∧
          call.1.reading.data.window 0 bytes = stream.take bytes)) ∧
      ((Transfer.mk reading stream).deliver counts).countP (fun call => call.2 = .enqueued) ≤ 1 ∧
      (counts ≠ [] → bytes ≤ stream.length → bytes ≤ counts.sum →
        ((Transfer.mk reading stream).deliver counts).countP (fun call => call.2 = .enqueued) = 1) := by
  have begins := Transfer.Filling.start memory bytes stream
  have once := Transfer.deliver_enqueued_le ⟨⟨memory, bytes, 0⟩, stream⟩ counts
  refine ⟨⟨memory, bytes, 0⟩, if_neg (by omega), ?_, once, ?_⟩
  · intro call member
    obtain ⟨taken, filling, outcome⟩ := begins.deliver small counts call member
    refine ⟨taken, filling.within, filling.unread, filling.arrived, outcome, ?_⟩
    intro enqueued
    have whole : taken = bytes := by
      by_contra short
      rw [if_neg short, enqueued] at outcome
      contradiction
    exact ⟨filling.len, whole ▸ filling.stored⟩
  · intro some available enough
    obtain ⟨call, member, enqueued⟩ := begins.completes small some available (by omega)
    have positive : 0 < ((Transfer.mk ⟨memory, bytes, 0⟩ stream).deliver counts).countP
        fun call => call.2 = .enqueued := List.countP_pos_iff.mpr ⟨call, member, decide_eq_true enqueued⟩
    exact Nat.le_antisymm once positive

theorem socketRead_exact_two_chunks :
    ∃ reading, startRead (fun _ => 0) 3 = some reading ∧
      ((Transfer.mk reading [0x61, 0x62, 0x63, 0x64]).deliver [2, 2]).countP (fun call => call.2 = .enqueued) = 1 := by
  obtain ⟨reading, started, _, _, completes⟩ := socketRead_exact 3 (by decide) (fun _ => 0) [0x61, 0x62, 0x63, 0x64] [2, 2]
  exact ⟨reading, started, completes (by decide) (by decide) (by decide)⟩

end Webapp.Workers

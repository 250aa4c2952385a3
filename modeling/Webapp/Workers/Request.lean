import Webapp.Data.Words
import Webapp.Data.Memory
import Webapp.MsgPack.Unpack

namespace Webapp.Workers

open Webapp.Data Webapp.MsgPack

structure CharVector where
  cells : Memory UInt8
  size : Nat

/-- New elements of a grown vector are zero; the kept ones are not touched. -/
def CharVector.resize (vector : CharVector) (size : Nat) : CharVector where
  cells := fun index => if index < vector.size then vector.cells index else 0
  size := size

theorem CharVector.resize_window {vector : CharVector} {size start count : Nat}
    (kept : start + count ≤ vector.size) :
    (vector.resize size).cells.window start count = vector.cells.window start count := by
  apply Memory.window_congr
  intro address _ inside
  exact if_pos (Nat.lt_of_lt_of_le inside kept)

/-- The fields of `Worker` that receiving a request reads.  `serves` says for
which sizes `vector::resize` returns; beyond `max_size()` it always throws. -/
structure Worker where
  requestSize : Nat
  serves : Nat → Bool
  serves_lt : ∀ size, serves size = true → size < 9223372036854775808

def Worker.unlimited (requestSize : Nat) : Worker where
  requestSize := requestSize
  serves := fun size => decide (size < 9223372036854775808)
  serves_lt := fun _ served => of_decide_eq_true served

theorem Worker.unlimited_serves {requestSize size : Nat} (small : size ≤ 65544) :
    (Worker.unlimited requestSize).serves size = true := by
  simp only [unlimited, decide_eq_true_eq]
  omega

/-- `Request`.  The pointer `headers_buf.data` is its distance from
`headers.data()`; `ctr` is the counter of the request's socket. -/
structure Request where
  headers : CharVector
  data : Nat
  len : Int
  ctr : Nat
  luaRequest : Option (List UInt8)

/-- `Request::reset` of a request that is kept. -/
def Request.reset (request : Request) : Request :=
  { request with
    headers := if 255 < request.len then request.headers.resize 9 else request.headers
    data := 0
    len := 0
    ctr := 0 }

def Request.new : Request :=
  Request.reset {
    headers := CharVector.resize ⟨fun _ => 0, 0⟩ 9
    data := 0
    len := 0
    ctr := 0
    luaRequest := none }

structure Request.Ready (request : Request) : Prop where
  room : 9 ≤ request.headers.size
  data : request.data = 0
  len : request.len = 0
  ctr : request.ctr = 0

theorem Request.new_ready : Request.new.Ready := ⟨by decide, rfl, rfl, rfl⟩

theorem Request.reset_ready {request : Request} (room : 9 ≤ request.headers.size) : request.reset.Ready := by
  refine ⟨?_, rfl, rfl, rfl⟩
  simp only [reset]
  split
  · exact Nat.le_refl 9
  · exact room

/-- What `read_some` meets on an open socket: bytes that have arrived, or an
error or end of file, which it throws. -/
inductive SocketRead where
  | bytes (chunk : List UInt8)
  | throws

/-- `read_some` on a buffer of `size` bytes; `none` is the exception.  An empty
buffer is served without looking at the socket. -/
def readSome (size : Nat) : SocketRead → Option (List UInt8)
  | .bytes chunk => some (chunk.take size)
  | .throws => if size = 0 then some [] else none

inductive Completion where
  | success (socket : SocketRead)
  | aborted
  | failed

inductive Outcome where
  | ignored
  | rearmed
  | enqueued
  | recycled
deriving DecidableEq, Repr

namespace Request

def toRead (request : Request) : Int := if request.len = 0 then 9 else request.len

def readSize (request : Request) : Int := request.toRead - request.ctr

/-- The bytes `msgpack_unpack_next` is given: `n` of them at `headers_buf.data`. -/
def received (request : Request) : List UInt8 :=
  request.headers.cells.window request.data request.ctr

/-- `n += s.read_some(buffer(headers_buf.data + n, to_read - n))` for the bytes
that the socket returns. -/
def receive (request : Request) (chunk : List UInt8) : Request :=
  { request with
    headers := { request.headers with
      cells := request.headers.cells.store (request.data + request.ctr) chunk }
    ctr := uint16 (request.ctr + chunk.length) }

/-- The attempt to parse the length.  `.error` is `resize` throwing, with the
length already stored. -/
def parseLength (worker : Worker) (request : Request) : Except Request Request :=
  if request.len = 0 ∧ 1 ≤ request.ctr then
    match unpackNext request.received with
    | some (.positiveInteger u64, offset) =>
        let headersSize := int32 u64
        let total := sizeT (headersSize + offset)
        let known := { request with
          len := headersSize
          data := offset
          ctr := uint16 (request.ctr - offset) }
        if 9 < total then
          if worker.serves total then .ok { known with headers := request.headers.resize total }
          else .error { request with len := headersSize }
        else .ok known
    | _ => .ok request
  else .ok request

@[simp] theorem receive_size (request : Request) (chunk : List UInt8) :
    (request.receive chunk).headers.size = request.headers.size := rfl

@[simp] theorem receive_data (request : Request) (chunk : List UInt8) :
    (request.receive chunk).data = request.data := rfl

@[simp] theorem receive_len (request : Request) (chunk : List UInt8) :
    (request.receive chunk).len = request.len := rfl

theorem receive_ctr_lt (request : Request) (chunk : List UInt8) : (request.receive chunk).ctr < 65536 := by
  simp only [receive]
  exact uint16_lt _

theorem receive_received {request : Request} {chunk : List UInt8}
    (small : request.ctr + chunk.length < 65536) :
    (request.receive chunk).received = request.received ++ chunk := by
  simp only [received, receive, uint16_add small]
  exact Memory.window_store_append _ _ _ _

theorem parseLength_of_known (worker : Worker) {request : Request} (known : request.len ≠ 0) :
    request.parseLength worker = .ok request := by
  simp [parseLength, known]

theorem parseLength_of_unparsed (worker : Worker) {request : Request}
    (unparsed : ∀ u64 offset, unpackNext request.received ≠ some (.positiveInteger u64, offset)) :
    request.parseLength worker = .ok request := by
  rw [parseLength]
  split
  · split
    · rename_i u64 offset parsed
      exact (unparsed u64 offset parsed).elim
    · rfl
  · rfl

theorem parseLength_of_parsed (worker : Worker) {request : Request} {u64 offset : Nat}
    (unknown : request.len = 0)
    (parsed : unpackNext request.received = some (.positiveInteger u64, offset)) :
    request.parseLength worker =
      if 9 < sizeT (int32 u64 + offset) then
        if worker.serves (sizeT (int32 u64 + offset)) then
          .ok { request with
            headers := request.headers.resize (sizeT (int32 u64 + offset))
            len := int32 u64
            data := offset
            ctr := uint16 (request.ctr - offset) }
        else .error { request with len := int32 u64 }
      else .ok { request with
        len := int32 u64
        data := offset
        ctr := uint16 (request.ctr - offset) } := by
  have bounds := unpackNext_positiveInteger parsed
  have nonempty : 1 ≤ request.ctr := by
    simp only [received, Memory.window_length] at bounds
    omega
  simp [parseLength, unknown, nonempty, parsed]

inductive Parses (worker : Worker) (request : Request) : Except Request Request → Prop
  | known (known : request.len ≠ 0) : Parses worker request (.ok request)
  | unparsed (unparsed : ∀ u64 offset, unpackNext request.received ≠ some (.positiveInteger u64, offset)) :
      Parses worker request (.ok request)
  | located {u64 offset : Nat} {headers : CharVector} (unknown : request.len = 0)
      (parsed : unpackNext request.received = some (.positiveInteger u64, offset))
      (room : headers = request.headers ∨ 9 < headers.size) :
      Parses worker request (.ok { request with
        headers := headers
        len := int32 u64
        data := offset
        ctr := uint16 (request.ctr - offset) })
  | refused {u64 offset : Nat} (unknown : request.len = 0)
      (parsed : unpackNext request.received = some (.positiveInteger u64, offset))
      (wide : 9 < sizeT (int32 u64 + offset)) : Parses worker request (.error { request with len := int32 u64 })

theorem parseLength_parses (worker : Worker) (request : Request) :
    Parses worker request (request.parseLength worker) := by
  by_cases known : request.len ≠ 0
  · rw [parseLength_of_known worker known]
    exact .known known
  · have unknown : request.len = 0 := not_not.mp known
    by_cases unparsed : ∀ u64 offset, unpackNext request.received ≠ some (.positiveInteger u64, offset)
    · rw [parseLength_of_unparsed worker unparsed]
      exact .unparsed unparsed
    · simp only [not_forall, not_not] at unparsed
      obtain ⟨u64, offset, parsed⟩ := unparsed
      rw [parseLength_of_parsed worker unknown parsed]
      generalize sum : sizeT (int32 u64 + offset) = total
      by_cases wide : 9 < total
      · rw [if_pos wide]
        split
        · exact .located unknown parsed (Or.inr wide)
        · exact .refused unknown parsed (sum ▸ wide)
      · rw [if_neg wide]
        exact .located unknown parsed (Or.inl rfl)

def process (worker : Worker) (request : Request) (chunk : List UInt8) : Request × Outcome :=
  match parseLength worker (request.receive chunk) with
  | .error request => (request, .recycled)
  | .ok request =>
      if 0 < request.len ∧ request.len ≤ request.ctr then
        ({ request with luaRequest := some (List.replicate worker.requestSize 0) }, .enqueued)
      else (request, .rearmed)

def processMsgpackRequest (worker : Worker) (request : Request) : Completion → Request × Outcome
  | .success socket =>
      match readSome (sizeT request.readSize) socket with
      | some chunk => request.process worker chunk
      | none => (request, .recycled)
  | .failed => (request, .recycled)
  | .aborted => (request, .ignored)

theorem processMsgpackRequest_acts (worker : Worker) (request : Request) (socket : SocketRead) :
    (request.processMsgpackRequest worker (.success socket)).2 ≠ .ignored := by
  simp only [processMsgpackRequest]
  split
  · simp only [process]
    split
    · simp
    · split <;> simp
  · simp

end Request

structure Connection where
  request : Request
  unread : List UInt8

/-- A call of the handler: `readable count` finds `count` bytes in the socket,
`readFails` a socket whose `read_some` throws. -/
inductive Call where
  | readable (count : Nat)
  | readFails
  | aborted
  | failed
deriving DecidableEq, Repr

namespace Connection

def completion (connection : Connection) : Call → Completion
  | .readable count => .success (.bytes (connection.unread.take count))
  | .readFails => .success .throws
  | .aborted => .aborted
  | .failed => .failed

def readResult (connection : Connection) (call : Call) : Option (List UInt8) :=
  match connection.completion call with
  | .success socket => readSome (sizeT connection.request.readSize) socket
  | _ => none

def step (worker : Worker) (connection : Connection) (call : Call) : Connection × Outcome :=
  let result := connection.request.processMsgpackRequest worker (connection.completion call)
  ({ request := result.1
     unread := connection.unread.drop ((connection.readResult call).getD []).length },
    result.2)

theorem step_readable (worker : Worker) (connection : Connection) (count : Nat) :
    connection.step worker (.readable count) =
      let chunk := (connection.unread.take count).take (sizeT connection.request.readSize)
      ({ request := (connection.request.process worker chunk).1
         unread := connection.unread.drop chunk.length },
        (connection.request.process worker chunk).2) := rfl

theorem step_request (worker : Worker) (connection : Connection) (call : Call) :
    (connection.step worker call).1.request =
      match connection.readResult call with
      | some chunk => (connection.request.process worker chunk).1
      | none => connection.request := by
  cases call with
  | readable count => rfl
  | readFails =>
      simp only [step, readResult, completion, Request.processMsgpackRequest]
      split <;> rfl
  | aborted => rfl
  | failed => rfl

end Connection

end Webapp.Workers

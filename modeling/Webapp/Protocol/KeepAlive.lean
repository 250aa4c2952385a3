import Webapp.Protocol.HeaderHandOver
import Webapp.Workers.Reuse
import Webapp.Workers.SocketRead

namespace Webapp.Protocol

open Webapp.Data Webapp.MsgPack Webapp.Nginx Webapp.Workers

/-! What a connection is for, call by call.  The worker receives a header and hands the
request to the script, which reads the body with `Socket_Read` and calls
`Request_Finish`; that resets the request and waits for the next header on the same
connection.  Here the bytes that arrive are all that happens.
-/

inductive Stage where
  | receiving
  | reading (reading : Reading)
  | closed

structure Serving where
  request : Workers.Request
  unread : List UInt8
  stage : Stage
  served : List (List UInt8 × List UInt8)

/-- The header as the script finds it in `headers_buf`. -/
def header (request : Workers.Request) : List UInt8 :=
  request.headers.cells.window request.data request.len.toNat

namespace Serving

def accept (request : Workers.Request) (stream : List UInt8) : Serving := ⟨request, stream, .receiving, []⟩

/-- `Request_Finish`, with the header and the body that the script has got. -/
def finish (serving : Serving) (body : List UInt8) : Serving :=
  { serving with
    request := serving.request.reset
    stage := .receiving
    served := serving.served ++ [(header serving.request, body)] }

section

variable (worker : Worker) (script : List UInt8 → Nat) (memory : Memory UInt8)

/-- The script reads as many bytes as it takes the header to announce.  Reading
counts with the counter of the request's own socket. -/
def resume (serving : Serving) : Serving :=
  let bytes := script (header serving.request)
  if bytes = 0 then serving.finish []
  else match startRead memory bytes with
    | some reading => { serving with request := { serving.request with ctr := reading.ctr }, stage := .reading reading }
    | none => { serving with stage := .closed }

def readable (serving : Serving) (count : Nat) : Serving :=
  match serving.stage with
  | .receiving =>
      let result := (Connection.mk serving.request serving.unread).step worker (.readable count)
      let serving := { serving with request := result.1.request, unread := result.1.unread }
      match result.2 with
      | .enqueued => serving.resume script memory
      | .rearmed | .ignored => serving
      | .recycled => { serving with stage := .closed }
  | .reading reading =>
      let result := (Transfer.mk reading serving.unread).readable count
      let serving := { serving with
        request := { serving.request with ctr := result.1.reading.ctr }
        unread := result.1.unread
        stage := .reading result.1.reading }
      match result.2 with
      | .enqueued => serving.finish (result.1.reading.data.window 0 result.1.reading.len.toNat)
      | .rearmed | .ignored => serving
      | .failed => { serving with stage := .closed }
  | .closed => serving

end

end Serving

def wire (pending : List (Message × List UInt8)) : List UInt8 :=
  pending.flatMap fun exchange => exchange.1.bytes ++ exchange.2

/-- The script knows how long the body is, the counter can hold that, and the first
read does not reach behind the header. -/
structure Exact (script : List UInt8 → Nat) (exchange : Message × List UInt8) : Prop where
  announced : script exchange.1.payload = exchange.2.length
  small : exchange.2.length ≤ 65535
  large : 9 ≤ exchange.1.size

/-- The exchanges that are still to come, the first of which may have begun. -/
inductive Expects (serving : Serving) : List (Message × List UInt8) → Prop
  | idle (receiving : serving.stage = .receiving) (ready : serving.request.Ready) (empty : serving.unread = []) :
      Expects serving []
  | receiving {message : Message} {body : List UInt8} {later : List (Message × List UInt8)} {taken : Nat}
      (receiving : serving.stage = .receiving) (room : 9 ≤ serving.request.headers.size)
      (assembling : (Connection.mk serving.request serving.unread).Assembling message
        (message.bytes ++ (body ++ wire later)) taken) : Expects serving ((message, body) :: later)
  | reading {message : Message} {body : List UInt8} {later : List (Message × List UInt8)} {taken : Nat}
      {reading : Reading} (stage : serving.stage = .reading reading) (room : 9 ≤ serving.request.headers.size)
      (kept : header serving.request = message.payload)
      (filling : (Transfer.mk reading serving.unread).Filling body.length (body ++ wire later) taken)
      (wanted : taken < body.length) : Expects serving ((message, body) :: later)

theorem expects_ready {serving : Serving} (receiving : serving.stage = .receiving) (ready : serving.request.Ready)
    {pending : List (Message × List UInt8)} (unread : serving.unread = wire pending) : Expects serving pending := by
  cases pending with
  | nil => exact .idle receiving ready unread
  | cons exchange later =>
      obtain ⟨message, body⟩ := exchange
      have stream : serving.unread = message.bytes ++ (body ++ wire later) := by
        rw [unread, wire, List.flatMap_cons, List.append_assoc]
        rfl
      have assembling : (Connection.mk serving.request serving.unread).Assembling message
          (message.bytes ++ (body ++ wire later)) 0 := by
        rw [stream]
        exact ready.assembling message _
      exact .receiving receiving ready.room assembling

def answered (exchange : Message × List UInt8) : List UInt8 × List UInt8 := (exchange.1.payload, exchange.2)

/-- A call has served some of the exchanges, and has taken a byte if there was one. -/
def Serves (serving next : Serving) (pending : List (Message × List UInt8)) (count : Nat) : Prop :=
  ∃ done later, pending = done ++ later ∧ next.served = serving.served ++ done.map answered ∧ Expects next later ∧
    (0 < count → pending ≠ [] → next.unread.length < serving.unread.length)

section Steps

variable {worker : Worker} {script : List UInt8 → Nat} {memory : Memory UInt8} {serving : Serving}
  {message : Message} {body : List UInt8} {later : List (Message × List UInt8)}

/-- The script finishes the request and nothing of the next one is lost. -/
theorem finish_expects (room : 9 ≤ serving.request.headers.size) (kept : header serving.request = message.payload)
    (unread : serving.unread = wire later) :
    (serving.finish body).served = serving.served ++ [(message, body)].map answered ∧
      Expects (serving.finish body) later := by
  refine ⟨?_, expects_ready rfl (Request.reset_ready room) unread⟩
  rw [Serving.finish, kept]
  rfl

theorem idle_serves (receiving : serving.stage = .receiving) (ready : serving.request.Ready) (empty : serving.unread = [])
    (count : Nat) : Serves serving (serving.readable worker script memory count) [] count := by
  have same : serving.request.receive [] = serving.request := by
    obtain ⟨⟨headers, data, len, ctr, luaRequest⟩, unread, stage, served⟩ := serving
    obtain rfl : ctr = 0 := ready.ctr
    simp [Request.receive, uint16]
  have result : (Connection.mk serving.request serving.unread).step worker (.readable count) =
      (Connection.mk serving.request serving.unread, .rearmed) := by
    rw [Connection.step_readable]
    simp [empty, Request.process, same, Request.parseLength, ready.ctr, ready.len]
  refine ⟨[], [], rfl, ?_, ?_, fun _ some => absurd rfl some⟩
  · simp only [Serving.readable, receiving, result, List.map_nil, List.append_nil]
  · simp only [Serving.readable, receiving, result]
    exact .idle rfl ready empty

theorem resume_serves (serving : Serving) (exact : Exact script (message, body)) (room : 9 ≤ serving.request.headers.size)
    (kept : header serving.request = message.payload) (unread : serving.unread = body ++ wire later) :
    ∃ done rest, (message, body) :: later = done ++ rest ∧
      (serving.resume script memory).served = serving.served ++ done.map answered ∧
      Expects (serving.resume script memory) rest ∧ (serving.resume script memory).unread = serving.unread := by
  have announced : script (header serving.request) = body.length := by
    rw [kept]
    exact exact.announced
  rw [Serving.resume, announced]
  dsimp only
  split
  · rename_i none
    obtain rfl := List.length_eq_zero_iff.mp none
    have finished : _ ∧ Expects (serving.finish []) later := finish_expects room kept unread
    exact ⟨[(message, [])], later, rfl, finished.1, finished.2, rfl⟩
  · rename_i wanted
    have started : startRead memory body.length = some ⟨memory, body.length, 0⟩ := if_neg (by omega)
    have filling : (Transfer.mk ⟨memory, body.length, 0⟩ serving.unread).Filling body.length (body ++ wire later) 0 := by
      rw [unread]
      exact .start memory body.length _
    rw [started]
    exact ⟨[], (message, body) :: later, rfl, (List.append_nil _).symm,
      .reading rfl room kept filling (Nat.pos_of_ne_zero wanted), rfl⟩

theorem receiving_serves (served : ∀ size ≤ 65544, worker.serves size = true) (exact : Exact script (message, body))
    {taken : Nat} (receiving : serving.stage = .receiving) (room : 9 ≤ serving.request.headers.size)
    (assembling : (Connection.mk serving.request serving.unread).Assembling message
      (message.bytes ++ (body ++ wire later)) taken) (count : Nat) :
    Serves serving (serving.readable worker script memory count) ((message, body) :: later) count := by
  have large : 9 ≤ message.size := exact.large
  have unfinished := assembling.unfinished
  have unread : serving.unread = (message.bytes ++ (body ++ wire later)).drop taken := assembling.unread
  have advances := assembling.advances worker count
  have further : 0 < count → taken < _ := fun positive => assembling.progress positive
  have roomNext : 9 ≤ ((Connection.mk serving.request serving.unread).step worker (.readable count)).1.request.headers.size :=
    Request.process_room room _
  generalize message.nextTaken (message.bytes ++ (body ++ wire later)) taken count = next at advances further
  generalize stepped : (Connection.mk serving.request serving.unread).step worker (.readable count) = result at *
  have shorter : 0 < count → result.1.unread.length < serving.unread.length := by
    intro positive
    have moved := further positive
    rw [advances.unread, unread, List.length_drop, List.length_drop, List.length_append, Message.bytes_length]
    omega
  rcases advances.served served with ⟨rearmed, again⟩ | ⟨enqueued, assembled⟩
  · have step : serving.readable worker script memory count =
        { serving with request := result.1.request, unread := result.1.unread } := by
      simp only [Serving.readable, receiving, stepped, rearmed]
    rw [step]
    exact ⟨[], _, rfl, (List.append_nil _).symm, .receiving receiving roomNext again, fun positive _ => shorter positive⟩
  · have step : serving.readable worker script memory count =
        Serving.resume script memory { serving with request := result.1.request, unread := result.1.unread } := by
      simp only [Serving.readable, receiving, stepped, enqueued]
    have finished := assembled.finished
    have overread := assembled.overread
    obtain rfl : next = message.size := by omega
    have left : result.1.unread = body ++ wire later := by
      rw [assembled.unread, List.drop_left' message.bytes_length]
    have kept : header result.1.request = message.payload := by
      rw [header, assembled.len, Int.toNat_natCast]
      exact assembled.payload
    rw [step]
    obtain ⟨done, rest, split, answers, expects, same⟩ :=
      resume_serves { serving with request := result.1.request, unread := result.1.unread } exact roomNext kept left
    refine ⟨done, rest, split, answers, expects, fun positive _ => ?_⟩
    rw [same]
    exact shorter positive

theorem reading_serves (exact : Exact script (message, body)) {taken : Nat} {reading : Reading}
    (stage : serving.stage = .reading reading) (room : 9 ≤ serving.request.headers.size)
    (kept : header serving.request = message.payload)
    (filling : (Transfer.mk reading serving.unread).Filling body.length (body ++ wire later) taken)
    (wanted : taken < body.length) (count : Nat) :
    Serves serving (serving.readable worker script memory count) ((message, body) :: later) count := by
  have small : body.length ≤ 65535 := exact.small
  have unread : serving.unread = (body ++ wire later).drop taken := filling.unread
  have bound := Transfer.nextTaken_le filling.within (body ++ wire later) count
  obtain ⟨filled, outcome⟩ := filling.readable count (by omega) (by omega)
  have further : 0 < count → taken < Transfer.nextTaken body.length (body ++ wire later) taken count := by
    intro positive
    simp only [Transfer.nextTaken, List.length_append]
    omega
  generalize Transfer.nextTaken body.length (body ++ wire later) taken count = next at *
  generalize called : (Transfer.mk reading serving.unread).readable count = result at *
  have shorter : 0 < count → result.1.unread.length < serving.unread.length := by
    intro positive
    have moved := further positive
    rw [filled.unread, unread, List.length_drop, List.length_drop, List.length_append]
    omega
  split at outcome
  · rename_i whole
    subst whole
    have step : serving.readable worker script memory count =
        Serving.finish { serving with
          request := { serving.request with ctr := result.1.reading.ctr }
          unread := result.1.unread
          stage := .reading result.1.reading } body := by
      have output : result.1.reading.data.window 0 result.1.reading.len.toNat = body := by
        rw [filled.len, Int.toNat_natCast, filled.stored, List.take_left]
      simp only [Serving.readable, stage, called, outcome, output]
    rw [step]
    have left : result.1.unread = wire later := by rw [filled.unread, List.drop_left]
    obtain ⟨answers, expects⟩ : _ ∧ Expects (Serving.finish { serving with
        request := { serving.request with ctr := result.1.reading.ctr }
        unread := result.1.unread
        stage := .reading result.1.reading } body) later := finish_expects room kept left
    exact ⟨[(message, body)], later, rfl, answers, expects, fun positive _ => shorter positive⟩
  · rename_i part
    have step : serving.readable worker script memory count =
        { serving with
          request := { serving.request with ctr := result.1.reading.ctr }
          unread := result.1.unread
          stage := .reading result.1.reading } := by
      simp only [Serving.readable, stage, called, outcome]
    rw [step]
    have still : next < body.length := by omega
    exact ⟨[], _, rfl, (List.append_nil _).symm, .reading rfl room kept filled still, fun positive _ => shorter positive⟩

theorem Expects.serves {pending : List (Message × List UInt8)} (served : ∀ size ≤ 65544, worker.serves size = true)
    (exact : ∀ exchange ∈ pending, Exact script exchange) (expects : Expects serving pending) (count : Nat) :
    Serves serving (serving.readable worker script memory count) pending count := by
  cases expects with
  | idle receiving ready empty => exact idle_serves receiving ready empty count
  | receiving receiving room assembling =>
      exact receiving_serves served (exact _ List.mem_cons_self) receiving room assembling count
  | reading stage room kept filling wanted =>
      exact reading_serves (exact _ List.mem_cons_self) stage room kept filling wanted count

theorem Expects.unread_pos {pending : List (Message × List UInt8)} (expects : Expects serving pending)
    (more : pending ≠ []) : 0 < serving.unread.length := by
  cases expects with
  | idle _ _ _ => contradiction
  | receiving _ _ assembling =>
      have unfinished := assembling.unfinished
      have unread : serving.unread = _ := assembling.unread
      rw [unread, List.length_drop, List.length_append, Message.bytes_length]
      omega
  | reading _ _ _ filling wanted =>
      have unread : serving.unread = _ := filling.unread
      rw [unread, List.length_drop, List.length_append]
      omega

end Steps

/-- What a script does that reads the number at the start of the header. -/
def announced (payload : List UInt8) : Nat :=
  match unpackNext payload with
  | some (.positiveInteger bytes, _) => bytes
  | _ => 0

theorem announced_payload (request : NgxRequest) : announced request.payload = request.bodyLength := by
  have encoded := packUint64_encodes request.bodyLength_lt
    ((packInt (int32 request.method.mask) :: request.outputChain.flatMap packString).flatten)
  rw [announced, NgxRequest.payload, NgxRequest.packs, List.flatten_cons, encoded]

/-- A request that gets through whole: it has a uri, the counters can hold it, the
body is as long as the client has said, and the header is not a tiny one. -/
structure Deliverable (request : NgxRequest) : Prop where
  named : request.unparsedUri ≠ []
  bounded : request.payload.length ≤ 65535
  whole : (chainContent request.requestBufs).length = request.bodyLength
  small : request.bodyLength ≤ 65535
  large : ¬ Tiny request

def exchange (request : NgxRequest) (deliverable : Deliverable request) : Message × List UInt8 :=
  (headerMessage request deliverable.named deliverable.bounded, chainContent request.requestBufs)

theorem exchange_exact {request : NgxRequest} (deliverable : Deliverable request) :
    Exact announced (exchange request deliverable) := by
  obtain ⟨least, tiny⟩ := payload_length_tiny_iff deliverable.named
  refine ⟨?_, ?_, ?_⟩
  · exact (announced_payload request).trans deliverable.whole.symm
  · exact deliverable.whole.trans_le deliverable.small
  · have form := (UintForm.shortest request.payload.length).size_pos
    have longer : request.payload.length ≠ 7 := fun seven => deliverable.large (tiny.mp seven)
    change 9 ≤ (UintForm.shortest request.payload.length).size + request.payload.length
    omega

theorem wire_exchanges {requests : List NgxRequest} {chains : List (List Buf)}
    (created : List.Forall₂ (fun request chain => ∃ pool, request.createRequest pool = some chain) requests chains)
    (deliverable : ∀ request ∈ requests, Deliverable request) :
    wire (requests.pmap exchange deliverable) = (chains.map chainContent).flatten := by
  induction created with
  | nil => rfl
  | cons first _ ih =>
      obtain ⟨pool, created⟩ := first
      obtain rfl := NgxRequest.createRequest_eq created
      have rest := ih fun request member => deliverable request (List.mem_cons_of_mem _ member)
      rw [List.pmap_cons, wire, List.flatMap_cons, ← wire, rest, List.map_cons, List.flatten_cons]
      congr 1
      rw [exchange, headerMessage_bytes pool]
      rfl

end Webapp.Protocol

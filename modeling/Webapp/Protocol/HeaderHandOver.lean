import Webapp.Nginx.Body
import Webapp.Workers.Reassembly

namespace Webapp.Protocol

open Webapp.Data Webapp.MsgPack Webapp.Nginx Webapp.Workers

/-! The header of the nginx module as the worker receives it. -/

def OutOfReach (len : Int) : Prop := len < 0 ∨ 65536 ≤ len

/-- Either an unreachable length is known, or the length is still unknown and
everything taken lies at the start of the buffer. -/
def Starved (stream : List UInt8) (connection : Connection) : Prop :=
  OutOfReach connection.request.len ∨
    ∃ taken ≤ 9, connection.request.len = 0 ∧ connection.request.data = 0 ∧
      connection.request.ctr = taken ∧ connection.unread = stream.drop taken ∧
      connection.request.headers.cells.window 0 taken = stream.take taken

def LengthOutOfReach (stream : List UInt8) : Prop :=
  ∀ count u64 offset, unpackNext (stream.take count) = some (.positiveInteger u64, offset) →
    OutOfReach (int32 u64)

section

variable {stream : List UInt8}

theorem process_outOfReach {worker : Worker} {request : Workers.Request} {chunk : List UInt8} {next : Workers.Request}
    (parsed : (request.receive chunk).parseLength worker = .ok next) (outOfReach : OutOfReach next.len)
    (counter : next.ctr < 65536) : request.process worker chunk = (next, .rearmed) := by
  simp only [Request.process, parsed]
  rw [if_neg]
  simp only [OutOfReach] at outOfReach
  omega

theorem Starved.step {connection : Connection} (starved : Starved stream connection) (worker : Worker)
    (unreachable : LengthOutOfReach stream) (count : Nat) :
    (connection.step worker (.readable count)).2 ≠ .enqueued ∧
      ((connection.step worker (.readable count)).2 = .rearmed →
        Starved stream (connection.step worker (.readable count)).1) := by
  obtain ⟨request, unread⟩ := connection
  rw [Connection.step_readable]
  dsimp only [Starved] at starved
  rcases starved with known | ⟨taken, small, len, data, ctr, rfl, stored⟩
  · have nonzero : request.len ≠ 0 := by
      simp only [OutOfReach] at known
      omega
    generalize ((unread.take count).take (sizeT request.readSize)) = chunk
    have parsed : (request.receive chunk).parseLength worker = .ok (request.receive chunk) :=
      Request.parseLength_of_known worker nonzero
    have result := process_outOfReach parsed known
      (request.receive_ctr_lt chunk)
    dsimp only
    rw [result]
    exact ⟨by simp, fun _ => Or.inl known⟩
  · have limit : sizeT request.readSize = 9 - taken := by
      simp only [Request.readSize, Request.toRead, len, ctr, if_true, sizeT]
      omega
    simp only [limit, List.take_take, List.drop_drop]
    have stored := Request.receive_stored (min (9 - taken) count) stored (by rw [data, ctr, Nat.zero_add])
    have fits : (((stream.drop taken).take (min (9 - taken) count))).length ≤ 9 - taken := by
      simp only [List.length_take]
      omega
    generalize (stream.drop taken).take (min (9 - taken) count) = chunk at *
    have counted : (request.receive chunk).ctr = taken + chunk.length := by
      have sum : uint16 (taken + chunk.length) = taken + chunk.length := uint16_add (by omega)
      simpa only [Request.receive, ctr] using sum
    have received : (request.receive chunk).received = stream.take (taken + chunk.length) := by
      rw [Request.received, Request.receive_data, data, counted, stored]
    by_cases parsed : ∃ u64 offset, unpackNext (request.receive chunk).received =
        some (.positiveInteger u64, offset)
    · obtain ⟨u64, offset, parsed⟩ := parsed
      have outOfReach := unreachable _ u64 offset (received ▸ parsed)
      have parse := Request.parseLength_of_parsed worker (request.receive_len chunk ▸ len) parsed
      split_ifs at parse
      · rw [process_outOfReach parse outOfReach (uint16_lt _)]
        exact ⟨by simp, fun _ => Or.inl outOfReach⟩
      · simp [Request.process, parse]
      · rw [process_outOfReach parse outOfReach (uint16_lt _)]
        exact ⟨by simp, fun _ => Or.inl outOfReach⟩
    · have parse : (request.receive chunk).parseLength worker = .ok (request.receive chunk) :=
        Request.parseLength_of_unparsed worker fun u64 offset found => parsed ⟨u64, offset, found⟩
      have result : request.process worker chunk = (request.receive chunk, .rearmed) := by
        simp [Request.process, parse, len]
      rw [result]
      refine ⟨by simp, fun _ => Or.inr ⟨taken + chunk.length, by omega, ?_⟩⟩
      exact ⟨len, data, counted, rfl, stored⟩

theorem Starved.deliver {connection : Connection} {counts : List Nat}
    (starved : Starved stream connection) (worker : Worker) (unreachable : LengthOutOfReach stream) :
    ∀ call ∈ connection.deliver worker counts, call.2 ≠ .enqueued :=
  Connection.deliver_forall (Starved stream) (fun _ count starved => starved.step worker unreachable count) starved counts

end

/-- A request whose header takes eight bytes: one for the length, one for each
number, two for the uri, and one for each of the other strings. -/
def Tiny (request : NgxRequest) : Prop :=
  request.bodyLength < 128 ∧ request.method.mask < 128 ∧ request.unparsedUri.length = 1 ∧
    request.host.getD [] = [] ∧ request.userAgent.getD [] = [] ∧ request.cookies.head?.getD [] = []

theorem packString_length_pos (string : Option (List UInt8)) :
    1 + (string.getD []).length ≤ (packString string).flatten.length := by
  cases string with
  | none => simp [packString, packNil]
  | some string =>
      have header := packRaw_length_pos string.length
      simp [packString, packRawBody]
      omega

theorem packString_length_empty {string : Option (List UInt8)} (empty : string.getD [] = []) :
    (packString string).flatten.length = 1 := by
  cases string with
  | none => rfl
  | some string =>
      obtain rfl : string = [] := empty
      rfl

theorem packMethod_length (method : Method) :
    1 ≤ (packInt (int32 method.mask)).length ∧
      ((packInt (int32 method.mask)).length = 1 ↔ method.mask < 128) := by
  cases method <;> decide

theorem payload_length_eq (request : NgxRequest) :
    request.payload.length = (packUint64 request.bodyLength).length +
      (packInt (int32 request.method.mask)).length +
      (packString (some request.unparsedUri)).flatten.length +
      (packString request.host).flatten.length + (packString request.userAgent).flatten.length +
      (packString request.cookies.head?).flatten.length := by
  simp only [NgxRequest.payload, NgxRequest.packs, NgxRequest.outputChain, List.flatten_cons,
    List.length_append, List.flatMap_cons, List.flatMap_nil, List.flatten_append, List.append_nil]
  omega

/-- No header is shorter than eight bytes, and only the tiny ones are. -/
theorem payload_length_tiny_iff {request : NgxRequest} (named : request.unparsedUri ≠ []) :
    7 ≤ request.payload.length ∧ (request.payload.length = 7 ↔ Tiny request) := by
  have number := packUint64_length_pos request.bodyLength
  have numberOne := packUint64_length_one_iff request.bodyLength
  obtain ⟨method, methodOne⟩ := packMethod_length request.method
  have uri := packString_length_pos (some request.unparsedUri)
  have host := packString_length_pos request.host
  have userAgent := packString_length_pos request.userAgent
  have cookie := packString_length_pos request.cookies.head?
  have uriLength : 0 < request.unparsedUri.length := List.length_pos_iff.mpr named
  have total := payload_length_eq request
  simp only [Option.getD_some] at uri
  refine ⟨by omega, ?_⟩
  constructor
  · intro seven
    refine ⟨by omega, by omega, by omega, ?_, ?_, ?_⟩
    all_goals
      apply List.eq_nil_of_length_eq_zero
      omega
  · intro fields
    obtain ⟨small, bit, one, noHost, noUserAgent, noCookie⟩ := fields
    have uriPacked : (packString (some request.unparsedUri)).flatten.length = 2 := by
      simp [packString, packRawBody, one, packRaw]
    rw [total, numberOne.mpr small, methodOne.mpr bit, uriPacked, packString_length_empty noHost,
      packString_length_empty noUserAgent, packString_length_empty noCookie]

def headerMessage (request : NgxRequest) (named : request.unparsedUri ≠ [])
    (bounded : request.payload.length ≤ 65535) : Message where
  form := .shortest request.payload.length
  payload := request.payload
  nonempty := by
    have least := (payload_length_tiny_iff named).1
    omega
  bounded := bounded
  fits := UintForm.shortest_fits (by omega)

theorem headerMessage_bytes {request : NgxRequest} (pool : Pool) (named : request.unparsedUri ≠ [])
    (bounded : request.payload.length ≤ 65535) :
    (headerMessage request named bounded).bytes = (request.headerBuf pool).content := by
  rw [request.headerBuf_content, NgxRequest.lengthBytes, packUint64_eq_encode]
  rfl

theorem header_outOfReach {request : NgxRequest} (long : 65535 < request.payload.length)
    (further : List UInt8) :
    LengthOutOfReach (request.lengthBytes ++ request.payload ++ further) := by
  have written := request.payload_length
  have short : stringsLength request.outputChain < 2147483648 := request.short
  have fits : request.payload.length < (UintForm.shortest request.payload.length).limit :=
    UintForm.shortest_fits (by omega)
  intro count u64 offset parsed
  rw [NgxRequest.lengthBytes, packUint64_eq_encode, List.append_assoc, unpackNext_take_encode _ fits] at parsed
  split at parsed
  · contradiction
  · cases parsed
    simp only [OutOfReach, int32]
    omega

theorem first_read_nine {worker : Worker} (served : ∀ size ≤ 65544, worker.serves size = true)
    {receiver : Workers.Request} (ready : receiver.Ready) {message : Message} {further : List UInt8}
    (small : message.size = 8) (more : further ≠ []) :
    ∃ call, (Connection.mk receiver (message.bytes ++ further)).deliver worker [9] = [call] ∧
      call.2 = .enqueued ∧ call.1.unread = (message.bytes ++ further).drop 9 := by
  have length : 9 ≤ (message.bytes ++ further).length := by
    have nonempty : 0 < further.length := List.length_pos_iff.mpr more
    simp only [List.length_append, Message.bytes_length]
    omega
  have unread : ((Connection.mk receiver (message.bytes ++ further)).step worker (.readable 9)).1.unread =
      (message.bytes ++ further).drop 9 := by
    have limit : sizeT receiver.readSize = 9 := by
      simp only [Request.readSize, Request.toRead, ready.len, ready.ctr, if_true]
      decide
    rw [Connection.step_readable]
    simp only [limit, List.take_take, List.length_take]
    congr 1
    omega
  have advances := (ready.assembling message (message.bytes ++ further)).advances worker 9
  rcases advances.served served with ⟨_, assembling⟩ | ⟨enqueued, _⟩
  · -- Nine bytes are more than the message has, so it cannot still be unfinished.
    have left := congrArg List.length (assembling.unread.symm.trans unread)
    have unfinished := assembling.unfinished
    simp only [List.length_drop] at left
    omega
  · refine ⟨_, ?_, enqueued, unread⟩
    simp [Connection.deliver, enqueued]

theorem Assembled.taken_exact {connection : Connection} {message : Message} {further : List UInt8}
    {taken : Nat} (assembled : connection.Assembled message (message.bytes ++ further) taken)
    (harmless : further = [] ∨ 9 ≤ message.size) :
    (message.bytes ++ further).length - connection.unread.length = message.bytes.length := by
  have finished := assembled.finished
  have overread := assembled.overread
  rw [assembled.unread, List.length_drop, List.length_append, Message.bytes_length]
  rcases harmless with rfl | large
  · simp only [List.length_nil]
    omega
  · omega

/-- A header that is too long for its length field is never handed over. -/
theorem oversized_starves (worker : Worker) (pool : Pool) (request : NgxRequest)
    (oversized : 65535 < request.payload.length) {receiver : Workers.Request} (ready : receiver.Ready)
    (counts : List Nat) :
    ∀ call ∈ (Connection.mk receiver ((request.headerBuf pool).content ++ chainContent request.requestBufs)).deliver
      worker counts, call.2 ≠ .enqueued := by
  have starved : Starved ((request.headerBuf pool).content ++ chainContent request.requestBufs)
      (Connection.mk receiver ((request.headerBuf pool).content ++ chainContent request.requestBufs)) :=
    Or.inr ⟨0, by decide, ready.len, ready.data, ready.ctr, rfl, rfl⟩
  have outOfReach := header_outOfReach oversized (chainContent request.requestBufs)
  rw [← request.headerBuf_content pool] at outOfReach
  exact fun call member => starved.deliver worker outOfReach call member

/-- A worker that hands a header on has taken the header and nothing of the
body, for every fragmentation, exactly when there is no body to take or the
header is not a tiny one.  Headers that the counter can hold are handed on. -/
theorem headerHandOver_iff (worker : Worker) (served : ∀ size ≤ 65544, worker.serves size = true)
    (pool : Pool) (request : NgxRequest) (named : request.unparsedUri ≠ []) (header : Buf)
    (body : List Buf) (created : request.createRequest pool = some (header :: body))
    (receiver : Workers.Request) (ready : receiver.Ready) :
    ((∀ counts : List Nat, (∀ count ∈ counts, 0 < count) →
        ∀ call ∈ (Connection.mk receiver (header.content ++ chainContent body)).deliver worker counts,
          call.2 = .enqueued →
            (header.content ++ chainContent body).length - call.1.unread.length = header.content.length) ↔
      (chainContent request.requestBufs = [] ∨ ¬ Tiny request)) ∧
    (request.payload.length ≤ 65535 → ∀ counts : List Nat, (∀ count ∈ counts, 0 < count) →
      header.content.length ≤ counts.length →
        ∃ call ∈ (Connection.mk receiver (header.content ++ chainContent body)).deliver worker counts,
          call.2 = .enqueued) := by
  obtain ⟨rfl, rfl⟩ := List.cons.inj (NgxRequest.createRequest_eq created)
  obtain ⟨least, tiny⟩ := payload_length_tiny_iff named
  by_cases bounded : request.payload.length ≤ 65535
  · have size : (headerMessage request named bounded).size = (UintForm.shortest request.payload.length).size +
        request.payload.length := rfl
    have form := (UintForm.shortest request.payload.length).size_pos
    rw [← headerMessage_bytes pool named bounded]
    generalize chainContent request.requestBufs = further
    have assembling := ready.assembling (headerMessage request named bounded)
      ((headerMessage request named bounded).bytes ++ further)
    refine ⟨⟨?_, ?_⟩, ?_⟩
    · intro exactly
      by_contra harmful
      obtain ⟨more, eats⟩ := not_or.mp harmful
      have seven := tiny.mpr (not_not.mp eats)
      have eight : (headerMessage request named bounded).size = 8 := by
        rw [size, seven]
        rfl
      obtain ⟨call, delivered, enqueued, unread⟩ := first_read_nine served ready eight more
      have taken := exactly [9] (by simp) call (by simp [delivered]) enqueued
      have nonempty : 0 < further.length := List.length_pos_iff.mpr more
      rw [unread] at taken
      simp only [List.length_drop, List.length_append, Message.bytes_length] at taken
      omega
    · intro harmless counts positive call member enqueued
      obtain ⟨_, taken, advances⟩ := assembling.deliver worker call member
      rcases advances.served served with ⟨rearmed, _⟩ | ⟨_, assembled⟩
      · simp [rearmed] at enqueued
      · refine Assembled.taken_exact assembled (harmless.imp id fun large => ?_)
        have eight : request.payload.length ≠ 7 := fun seven => large (tiny.mp seven)
        omega
    · intro _ counts positive enough
      refine assembling.completes served positive ?_
      rw [Message.bytes_length] at enough
      omega
  · refine ⟨iff_of_true ?_ (Or.inr ?_), fun short => absurd short bounded⟩
    · intro counts _ call member enqueued
      exact absurd enqueued (oversized_starves worker pool request (by omega) ready counts call member)
    · intro small
      have seven := tiny.mpr small
      omega

theorem headerHandOver_getRoot :
    ∃ header, NgxRequest.getRoot.createRequest Pool.zeroed = some [header] ∧
      ∃ call ∈ (Connection.mk Request.new (header.content ++ chainContent [])).deliver (Worker.unlimited 1)
          (List.replicate 8 1), call.2 = .enqueued :=
  ⟨_, rfl, (headerHandOver_iff (Worker.unlimited 1) (fun _ => Worker.unlimited_serves) Pool.zeroed
    NgxRequest.getRoot (by decide) _ [] rfl Request.new Request.new_ready).2 (by decide)
      (List.replicate 8 1) (by decide) (by decide)⟩

/-- `POST /` with the body `A`: the eight bytes of the header and the body are
taken by one read, and nothing is left for `Socket_Read`. -/
theorem headerHandOver_plainPost_eats_body :
    ∃ request header body, Incoming.plainPost.handler = some request ∧
      request.createRequest Pool.zeroed = some (header :: body) ∧
      header.content = [0x07, 0x01, 0x08, 0xa1, 0x2f, 0xc0, 0xc0, 0xc0] ∧ chainContent body = [0x41] ∧
      ∃ call ∈ (Connection.mk Request.new (header.content ++ chainContent body)).deliver
          (Worker.unlimited 1) [9],
        call.2 = .enqueued ∧
          (header.content ++ chainContent body).length - call.1.unread.length ≠ header.content.length :=
  ⟨_, _, _, rfl, rfl, by decide, by decide, by decide⟩

end Webapp.Protocol

import Webapp.Data.Words
import Webapp.MsgPack.Objects

namespace Webapp.Nginx

open Webapp.Data Webapp.MsgPack

inductive Expires where
  | unset
  | access
  | off
deriving DecidableEq, Repr

/-- What `process_header` reads and writes.  `received` is what lies between
`u->buffer.start` and `u->buffer.last`, and `pos` is a distance from the start;
`cache` is the local flag, kept to speak about it afterwards. -/
structure Upstream where
  received : List UInt8
  pos : Nat
  remainingHeaderLen : Nat
  keepalive : Bool
  contentLengthN : Int
  statusN : Nat
  cache : Nat
  expires : Expires
  setCookie : List (List UInt8)
  contentType : List UInt8

/-- The stack the function runs on, for a string that is never assigned, and
whether `ngx_list_push` has memory for another header. -/
structure Surroundings where
  cookie : List UInt8
  listPush : Bool

inductive ReturnCode where
  | ok
  | again
  | error
deriving DecidableEq, Repr

namespace Upstream

def rest (u : Upstream) : List UInt8 := u.received.drop u.pos

/-- `unpack_next`: zero for everything that is not an unsigned integer. -/
def unpackInteger (u : Upstream) : Nat × Upstream :=
  match unpackNext u.rest with
  | some (.positiveInteger u64, offset) => (u64, { u with pos := u.pos + offset })
  | some (_, offset) => (0, { u with pos := u.pos + offset })
  | none => (0, u)

/-- `unpack_string`, which leaves the string alone unless it finds a raw. -/
def unpackString (u : Upstream) (str : List UInt8) : List UInt8 × Upstream :=
  match unpackNext u.rest with
  | some (.raw bytes, offset) => (bytes, { u with pos := u.pos + offset })
  | some (_, offset) => (str, { u with pos := u.pos + offset })
  | none => (str, u)

def readLength (u : Upstream) : Upstream :=
  let length := u.unpackInteger
  let remaining := uint16 length.1
  { length.2 with
    remainingHeaderLen := remaining
    keepalive := if remaining = 0 then false else true }

def readHeader (surroundings : Surroundings) (u : Upstream) : Upstream × ReturnCode :=
  let contentLength := u.unpackInteger
  let cache := contentLength.2.unpackInteger
  let cookie := cache.2.unpackString surroundings.cookie
  let contentType := cookie.2.unpackString u.contentType
  let pushed := cookie.1.length > 0 ∧ surroundings.listPush
  ({ contentType.2 with
      contentLengthN := uint32 contentLength.1
      cache := uint8 cache.1
      setCookie := if pushed then u.setCookie ++ [cookie.1] else u.setCookie
      contentType := contentType.1
      statusN := 200
      expires := if uint8 cache.1 = 0 then .access else .off },
    if cookie.1.length > 0 ∧ surroundings.listPush = false then .error else .ok)

def processHeader (surroundings : Surroundings) (u : Upstream) : Upstream × ReturnCode :=
  let u := if u.pos = 0 then u.readLength else u
  if u.remainingHeaderLen ≤ u.received.length - u.pos then u.readHeader surroundings
  else (u, .again)

/-- The loop of `ngx_http_upstream_process_header`: a call for each chunk, as
long as the answer is `NGX_AGAIN`. -/
def receiveChunks (surroundings : Surroundings) : Upstream → List (List UInt8) →
    List (Upstream × ReturnCode)
  | _, [] => []
  | u, chunk :: chunks =>
      let result := { u with received := u.received ++ chunk }.processHeader surroundings
      result :: if result.2 = .again then receiveChunks surroundings result.1 chunks else []

end Upstream

/-- A well formed response: the length of its header in any of the unsigned
forms, the four objects of the header in any encoding, and the body. -/
structure Response where
  form : UintForm
  contentLength : Nat
  cache : Nat
  cookie : List UInt8
  contentType : List UInt8
  contentLengthBytes : List UInt8
  cacheBytes : List UInt8
  cookieBytes : List UInt8
  contentTypeBytes : List UInt8
  body : List UInt8
  contentLength_encoded : Encodes contentLengthBytes (.positiveInteger contentLength)
  cache_encoded : Encodes cacheBytes (.positiveInteger cache)
  cookie_encoded : Encodes cookieBytes (.raw cookie)
  contentType_encoded : Encodes contentTypeBytes (.raw contentType)
  bounded : (contentLengthBytes ++ cacheBytes ++ cookieBytes ++ contentTypeBytes).length < 65536
  fits : (contentLengthBytes ++ cacheBytes ++ cookieBytes ++ contentTypeBytes).length < form.limit

namespace Response

def header (response : Response) : List UInt8 :=
  response.contentLengthBytes ++ response.cacheBytes ++ response.cookieBytes ++ response.contentTypeBytes

def headerSize (response : Response) : Nat := response.form.size + response.header.length

def bytes (response : Response) : List UInt8 :=
  response.form.encode response.header.length ++ response.header ++ response.body

theorem header_pos (response : Response) : 0 < response.header.length := by
  have first : response.contentLengthBytes ≠ [] := by
    intro empty
    have impossible := response.contentLength_encoded []
    simp [empty, unpackNext, execute] at impossible
  have positive := List.length_pos_iff.mpr first
  simp only [header, List.length_append]
  omega

def Answered (response : Response) (call : Upstream × ReturnCode) : Prop :=
  if call.1.received.length < response.headerSize then call.2 = .again
  else
    call.2 = .ok ∧ call.1.contentLengthN = response.contentLength ∧ call.1.cache = response.cache ∧
      call.1.setCookie = (if response.cookie = [] then [] else [response.cookie]) ∧
      call.1.contentType = response.contentType ∧ call.1.pos = response.headerSize

end Response

structure Upstream.Settled (u : Upstream) (response : Response) : Prop where
  pos : u.pos = response.form.size
  remaining : u.remainingHeaderLen = response.header.length
  setCookie : u.setCookie = []

section

variable {response : Response} {u : Upstream} {tail : List UInt8}

theorem Upstream.unpackInteger_encoded {bytes : List UInt8} {value : Nat}
    (encoded : Encodes bytes (.positiveInteger value)) (behind : u.rest = bytes ++ tail) :
    u.unpackInteger = (value, { u with pos := u.pos + bytes.length }) := by
  simp only [unpackInteger, behind, encoded tail]

theorem Upstream.unpackString_encoded {bytes value : List UInt8} (str : List UInt8)
    (encoded : Encodes bytes (.raw value)) (behind : u.rest = bytes ++ tail) :
    u.unpackString str = (value, { u with pos := u.pos + bytes.length }) := by
  simp only [unpackString, behind, encoded tail]

theorem Upstream.rest_advance {bytes : List UInt8} (behind : u.rest = bytes ++ tail) :
    ({ u with pos := u.pos + bytes.length } : Upstream).rest = tail := by
  have dropped := congrArg (List.drop bytes.length) behind
  simpa only [Upstream.rest, List.drop_drop, List.drop_left] using dropped

theorem Upstream.readHeader_complete (surroundings : Surroundings) (memory : surroundings.listPush = true)
    (behind : u.rest = response.header ++ tail) :
    u.readHeader surroundings =
      ({ u with
          pos := u.pos + response.header.length
          contentLengthN := uint32 response.contentLength
          cache := uint8 response.cache
          setCookie := if response.cookie = [] then u.setCookie else u.setCookie ++ [response.cookie]
          contentType := response.contentType
          statusN := 200
          expires := if uint8 response.cache = 0 then .access else .off }, .ok) := by
  rw [Response.header, List.append_assoc, List.append_assoc, List.append_assoc] at behind
  have contentLength := unpackInteger_encoded response.contentLength_encoded behind
  have behindLength := rest_advance behind
  have cache := unpackInteger_encoded response.cache_encoded behindLength
  have behindCache := rest_advance behindLength
  have cookie := unpackString_encoded surroundings.cookie response.cookie_encoded behindCache
  have behindCookie := rest_advance behindCache
  have contentType := unpackString_encoded u.contentType response.contentType_encoded behindCookie
  simp only [readHeader, contentLength, cache, cookie, contentType, memory]
  have size : u.pos + response.contentLengthBytes.length + response.cacheBytes.length +
      response.cookieBytes.length + response.contentTypeBytes.length = u.pos + response.header.length := by
    simp only [Response.header, List.length_append]
    omega
  cases response.cookie with
  | nil => simp [size]
  | cons byte bytes => simp [size]

theorem Upstream.processHeader_started (surroundings : Surroundings) (started : u.pos ≠ 0) :
    u.processHeader surroundings =
      if u.remainingHeaderLen ≤ u.received.length - u.pos then u.readHeader surroundings
      else (u, .again) := by
  simp only [processHeader, if_neg started]

def Response.Representable (response : Response) : Prop :=
  response.contentLength < 4294967296 ∧ response.cache < 256

theorem Upstream.Settled.processHeader (settled : u.Settled response) (surroundings : Surroundings)
    (memory : surroundings.listPush = true) (split : u.received ++ tail = response.bytes) :
    (u.received.length < response.headerSize ∧ u.processHeader surroundings = (u, .again)) ∨
      (response.headerSize ≤ u.received.length ∧
        (u.processHeader surroundings).1.received = u.received ∧
        (u.processHeader surroundings).2 = .ok ∧
        (response.Answered (u.processHeader surroundings) ↔ response.Representable)) := by
  have started : u.pos ≠ 0 := by
    have size := response.form.size_pos
    rw [settled.pos]
    omega
  by_cases whole : u.received.length < response.headerSize
  · refine Or.inl ⟨whole, ?_⟩
    have nonempty := response.header_pos
    simp only [Response.headerSize] at whole
    rw [processHeader_started surroundings started, settled.remaining, settled.pos, if_neg (by omega)]
  · have enough : response.headerSize ≤ u.received.length := by omega
    have behind : u.rest = response.header ++ u.received.drop response.headerSize := by
      have bytes : u.received = response.form.encode response.header.length ++ response.header ++
          u.received.drop response.headerSize := by
        have begins := congrArg (List.take response.headerSize) split
        rw [List.take_append_of_le_length enough, Response.bytes,
          List.take_left' (by simp [Response.headerSize])] at begins
        rw [← begins, List.take_append_drop]
      have dropped := congrArg (List.drop response.form.size) bytes
      rwa [List.append_assoc, List.drop_left' (by simp), ← settled.pos] at dropped
    have result : u.processHeader surroundings = u.readHeader surroundings := by
      simp only [Response.headerSize] at enough
      rw [processHeader_started surroundings started, settled.remaining, settled.pos, if_pos (by omega)]
    rw [result, readHeader_complete surroundings memory behind]
    refine Or.inr ⟨enough, rfl, rfl, ?_⟩
    simp only [Response.Answered, settled.setCookie, settled.pos, List.nil_append]
    rw [if_neg whole, uint8_eq_iff, Int.ofNat_inj, uint32_eq_iff, Response.headerSize]
    simp only [Response.Representable, true_and, and_true]

theorem Upstream.Settled.receiveChunks (settled : u.Settled response) (surroundings : Surroundings)
    (memory : surroundings.listPush = true) (chunks : List (List UInt8))
    (split : u.received ++ chunks.flatten = response.bytes)
    (waiting : u.received.length < response.headerSize) :
    ∃ decoded ∈ u.receiveChunks surroundings chunks,
      response.headerSize ≤ decoded.1.received.length ∧
        ((∀ call ∈ u.receiveChunks surroundings chunks, response.Answered call) ↔
          response.Representable) := by
  induction chunks generalizing u with
  | nil =>
      have length := congrArg List.length split
      simp only [List.flatten_nil, List.append_nil, Response.bytes, Response.headerSize,
        List.length_append, UintForm.encode_length] at length waiting
      omega
  | cons chunk chunks ih =>
      have again : ({ u with received := u.received ++ chunk } : Upstream).Settled response :=
        ⟨settled.pos, settled.remaining, settled.setCookie⟩
      have rejoined : (u.received ++ chunk) ++ chunks.flatten = response.bytes := by
        rw [← split, List.flatten_cons, List.append_assoc]
      rcases again.processHeader surroundings memory rejoined with
        ⟨short, result⟩ | ⟨enough, received, ok, answered⟩
      · obtain ⟨decoded, member, complete, all⟩ := ih again rejoined short
        simp only [Upstream.receiveChunks, result, if_true]
        refine ⟨decoded, by simp [member], complete, ?_⟩
        rw [← all, List.forall_mem_cons]
        simp only [Response.Answered, if_pos short, true_and]
      · simp only [Upstream.receiveChunks, ok, reduceCtorEq, if_false]
        refine ⟨_, List.mem_singleton_self _, by rw [received]; exact enough, ?_⟩
        simpa using answered

@[simp] theorem Upstream.unpackInteger_received : u.unpackInteger.2.received = u.received := by
  simp only [unpackInteger]
  split <;> rfl

@[simp] theorem Upstream.unpackString_received (str : List UInt8) :
    (u.unpackString str).2.received = u.received := by
  simp only [unpackString]
  split <;> rfl

theorem Upstream.processHeader_received (surroundings : Surroundings) :
    (u.processHeader surroundings).1.received = u.received := by
  simp only [processHeader]
  split <;> split <;> simp [readHeader, readLength]

theorem Upstream.readHeader_answers (surroundings : Surroundings) :
    (u.readHeader surroundings).2 ≠ .again := by
  simp only [readHeader]
  split <;> simp

/-- A call that is answered with `NGX_OK` has read the header, and would have with
any surroundings. -/
theorem Upstream.processHeader_ok {surroundings : Surroundings} (ok : (u.processHeader surroundings).2 = .ok)
    (other : Surroundings) :
    u.processHeader other = (if u.pos = 0 then u.readLength else u).readHeader other := by
  simp only [processHeader] at ok ⊢
  rw [if_pos]
  by_contra waiting
  rw [if_neg waiting] at ok
  cases ok

theorem Upstream.unpackNext_start (start : u.pos = 0) (split : u.received ++ tail = response.bytes) :
    unpackNext u.rest = if u.received.length < response.form.size then none
      else some (.positiveInteger response.header.length, response.form.size) := by
  have fits : response.header.length < response.form.limit := response.fits
  have taken := unpackNext_take_encode response.form fits (response.header ++ response.body) u.received.length
  rw [← List.append_assoc, ← Response.bytes, ← split, List.take_left] at taken
  rw [rest, start, List.drop_zero, taken]

theorem Upstream.processHeader_cut (surroundings : Surroundings) (start : u.pos = 0)
    (split : u.received ++ tail = response.bytes) (cut : u.received.length < response.form.size) :
    (u.processHeader surroundings).2 ≠ .again := by
  have nothing : unpackNext u.rest = none := by rw [unpackNext_start start split, if_pos cut]
  have length : u.readLength = { u with remainingHeaderLen := 0, keepalive := false } := by
    simp only [readLength, unpackInteger, nothing]
    rfl
  simp only [processHeader, start, if_true, length, Nat.zero_le]
  exact readHeader_answers surroundings

theorem Upstream.processHeader_first (surroundings : Surroundings) (start : u.pos = 0)
    (split : u.received ++ tail = response.bytes) (whole : response.form.size ≤ u.received.length) :
    u.processHeader surroundings =
      ({ u with
        pos := response.form.size
        remainingHeaderLen := response.header.length
        keepalive := true } : Upstream).processHeader surroundings := by
  have size := response.form.size_pos
  have nonempty := response.header_pos
  have decoded : unpackNext u.rest = some (.positiveInteger response.header.length, response.form.size) := by
    rw [unpackNext_start start split, if_neg (Nat.not_lt.mpr whole)]
  have length : u.readLength = { u with
      pos := response.form.size
      remainingHeaderLen := response.header.length
      keepalive := true } := by
    have kept : uint16 response.header.length = response.header.length := uint16_of_small response.bounded
    simp only [readLength, unpackInteger, decoded, kept, start, Nat.zero_add]
    rw [if_neg (by omega)]
  have started : response.form.size ≠ 0 := by omega
  simp only [processHeader, start, if_true, length, if_neg started]

end

/-- Every call answers as it should, and one of them decodes the header, exactly
when the first chunk holds the whole length and no number is cut. -/
theorem receiveChunks_answered_iff (surroundings : Surroundings) (memory : surroundings.listPush = true)
    (response : Response) (u : Upstream) (empty : u.received = []) (start : u.pos = 0)
    (noCookie : u.setCookie = []) (chunks : List (List UInt8)) (split : chunks.flatten = response.bytes) :
    ((∀ call ∈ u.receiveChunks surroundings chunks, response.Answered call) ∧
        ∃ call ∈ u.receiveChunks surroundings chunks, call.2 = .ok) ↔
      response.form.size ≤ (chunks.headD []).length ∧ response.contentLength < 4294967296 ∧
        response.cache < 256 := by
  obtain ⟨chunk, chunks, rfl⟩ : ∃ chunk rest, chunks = chunk :: rest := by
    cases chunks with
    | nil =>
        have length := congrArg List.length split
        have size := response.form.size_pos
        simp [Response.bytes] at length
        omega
    | cons chunk chunks => exact ⟨chunk, chunks, rfl⟩
  have joined : (u.received ++ chunk) ++ chunks.flatten = response.bytes := by
    rw [empty, List.nil_append, ← split, List.flatten_cons]
  by_cases whole : response.form.size ≤ chunk.length
  · -- From here on the run is one that starts with a known length.
    have known : ({ u with
        pos := response.form.size
        remainingHeaderLen := response.header.length
        keepalive := true } : Upstream).Settled response := ⟨rfl, rfl, noCookie⟩
    have same : u.receiveChunks surroundings (chunk :: chunks) =
        ({ u with
          pos := response.form.size
          remainingHeaderLen := response.header.length
          keepalive := true } : Upstream).receiveChunks surroundings (chunk :: chunks) := by
      have first := Upstream.processHeader_first surroundings
        (u := { u with received := u.received ++ chunk }) start joined (by simpa [empty] using whole)
      simp only [Upstream.receiveChunks, first]
    have waiting : u.received.length < response.headerSize := by
      have nonempty := response.header_pos
      simp only [empty, List.length_nil, Response.headerSize]
      omega
    obtain ⟨decoded, member, complete, all⟩ := known.receiveChunks surroundings memory
      (chunk :: chunks) (by simpa only [List.flatten_cons, List.append_assoc] using joined) waiting
    rw [same, all]
    constructor
    · intro answered
      obtain ⟨representable, _⟩ := answered
      exact ⟨whole, representable⟩
    · intro condition
      obtain ⟨_, representable⟩ := condition
      have answered := all.mpr representable decoded member
      rw [Response.Answered, if_neg (by omega)] at answered
      exact ⟨representable, decoded, member, answered.1⟩
  · refine iff_of_false ?_ (fun condition => whole condition.1)
    intro either
    obtain ⟨answered, _⟩ := either
    have first := answered _ List.mem_cons_self
    have code := Upstream.processHeader_cut surroundings
      (u := { u with received := u.received ++ chunk }) start joined (by simp [empty]; omega)
    rw [Response.Answered, Upstream.processHeader_received] at first
    rw [if_pos (by simp only [empty, List.nil_append, Response.headerSize]; omega)] at first
    exact code first

def Response.short (form : UintForm) : Response where
  form := form
  contentLength := 1
  cache := 0
  cookie := []
  contentType := [0x74]
  contentLengthBytes := packUint64 1
  cacheBytes := packUint64 0
  cookieBytes := packRaw 0 ++ packRawBody []
  contentTypeBytes := packRaw 1 ++ packRawBody [0x74]
  body := [0x41]
  contentLength_encoded := packUint64_encodes (by decide)
  cache_encoded := packUint64_encodes (by decide)
  cookie_encoded := packRaw_encodes [] (by decide)
  contentType_encoded := packRaw_encodes [0x74] (by decide)
  bounded := by decide
  fits := by cases form <;> decide

def Upstream.fresh : Upstream where
  received := []
  pos := 0
  remainingHeaderLen := 0
  keepalive := false
  contentLengthN := -1
  statusN := 0
  cache := 0
  expires := .unset
  setCookie := []
  contentType := []

theorem receiveChunks_answered_short :
    (∀ call ∈ Upstream.fresh.receiveChunks ⟨[], true⟩ [[0x05, 0x01], [0x00, 0xa0], [0xa1, 0x74, 0x41]],
      (Response.short .fixnum).Answered call) ∧
      ∃ call ∈ Upstream.fresh.receiveChunks ⟨[], true⟩ [[0x05, 0x01], [0x00, 0xa0], [0xa1, 0x74, 0x41]],
        call.2 = .ok :=
  (receiveChunks_answered_iff ⟨[], true⟩ rfl (Response.short .fixnum) Upstream.fresh rfl rfl rfl
    [[0x05, 0x01], [0x00, 0xa0], [0xa1, 0x74, 0x41]] (by decide)).mpr (by decide)

/-- The first chunk ends inside the length: the call answers `NGX_OK` with a
content length of zero. -/
theorem receiveChunks_split_length :
    [[0xcc], [0x05, 0x01, 0x00, 0xa0, 0xa1, 0x74, 0x41]].flatten = (Response.short .uint8).bytes ∧
      ∃ call ∈ Upstream.fresh.receiveChunks ⟨[], true⟩
          [[0xcc], [0x05, 0x01, 0x00, 0xa0, 0xa1, 0x74, 0x41]],
        call.2 = .ok ∧ call.1.contentLengthN = 0 ∧ call.1.received = [0xcc] ∧
          call.1.received.length < (Response.short .uint8).headerSize ∧
          ¬ (Response.short .uint8).Answered call := by
  refine ⟨by decide, _, List.mem_cons_self, by decide, by decide, by decide, by decide, ?_⟩
  intro answered
  rw [Response.Answered, if_pos (by decide)] at answered
  exact absurd answered (by decide)

end Webapp.Nginx

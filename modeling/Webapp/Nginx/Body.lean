import Webapp.Nginx.Reinit

namespace Webapp.Nginx

open Webapp.Data Webapp.MsgPack

/-! How a request gets its body: the checks of `ngx_http_process_request_header`,
`ngx_http_webapp_handler` and the request body filters.
-/

/-- The loop of `ngx_atoof`, on an `off_t` of 64 bits; `none` is `NGX_ERROR`. -/
def atoofLoop : Int → List UInt8 → Option Int
  | value, [] => some value
  | value, byte :: line =>
      if isDigit byte then atoofLoop (int64 (value * 10 + digitValue byte)) line else none

def ngxAtoof (line : List UInt8) : Option Nat :=
  if line = [] then none
  else (atoofLoop 0 line).bind fun value => if value < 0 then none else some value.toNat

def sameWord (value word : List UInt8) : Bool :=
  value.map (fun byte => if 0x41 ≤ byte && byte ≤ 0x5a then byte ||| 0x20 else byte) == word

/-- "chunked" -/
def chunkedWord : List UInt8 := [0x63, 0x68, 0x75, 0x6e, 0x6b, 0x65, 0x64]

/-- "identity" -/
def identityWord : List UInt8 := [0x69, 0x64, 0x65, 0x6e, 0x74, 0x69, 0x74, 0x79]

/-- The fields of `headers_in` that describe the body; `contentLengthN` is
`none` for -1. -/
structure HeadersIn where
  contentLength : Option (List UInt8)
  contentLengthN : Option Nat
  chunked : Bool
deriving Repr

/-- The body part of `ngx_http_process_request_header`; `none` is a request
that is refused. -/
def processRequestHeader (method : Method) (contentLength transferEncoding : Option (List UInt8)) :
    Option HeadersIn :=
  let length : Option (Option Nat) :=
    match contentLength with
    | some value => (ngxAtoof value).map some
    | none => some none
  length.bind fun contentLengthN =>
    if method = .trace then none
    else
      match transferEncoding with
      | none => some ⟨contentLength, contentLengthN, false⟩
      | some value =>
          if sameWord value chunkedWord then some ⟨none, none, true⟩
          else if sameWord value identityWord then some ⟨contentLength, contentLengthN, false⟩
          else none

/-- `ngx_http_request_body_length_filter` over the buffers that were received,
with the rest that is still missing behind them. -/
def lengthFilter : Nat → List Buf → List Buf × Nat
  | 0, _ => ([], 0)
  | rest, [] => ([], rest)
  | rest, buf :: bufs =>
      let size := buf.last - buf.pos
      if size < rest then
        let later := lengthFilter (rest - size) bufs
        ({ buf with start := buf.pos } :: later.1, later.2)
      else ([{ buf with start := buf.pos, last := buf.pos + rest }], 0)

/-- `ngx_http_request_body_chunked_filter` on the data of the chunks: one
buffer for each piece, and an empty one at the end. -/
def chunkedFilter (pieces : List Buf) : List Buf :=
  pieces.map (fun buf => { buf with start := buf.pos }) ++ [Buf.createTemp (fun _ => 0) 0]

/-- What is left of the chain once `ngx_http_write_request_body` has moved it
to a temporary file. -/
def writeRequestBody (bufs : List Buf) : List Buf :=
  let bytes := chainContent bufs
  if bytes = [] then []
  else [{ Buf.createTemp (fun _ => 0) 0 with
    file := some ⟨Memory.ofList bytes 0, 0, bytes.length⟩ }]

structure Transfer where
  pieces : List Buf
  inFile : Bool
  ordered : ∀ piece ∈ pieces, piece.Ordered
  inMemory : ∀ piece ∈ pieces, piece.file = none

/-- `ngx_http_read_client_request_body`: `request_body->bufs` when the handler
is called, or `none` when the body does not arrive. -/
def readClientRequestBody (headers : HeadersIn) (transfer : Transfer) : Option (List Buf) :=
  let saved (bufs : List Buf) := if transfer.inFile then writeRequestBody bufs else bufs
  if headers.chunked then some (saved (chunkedFilter transfer.pieces))
  else
    match headers.contentLengthN with
    | none => some []
    | some length =>
        let filtered := lengthFilter length transfer.pieces
        if filtered.2 = 0 then some (saved filtered.1) else none

theorem atoofLoop_some {start : Nat} {line : List UInt8} {result : Int}
    (parsed : atoofLoop (int64 start) line = some result) :
    (∀ byte ∈ line, isDigit byte = true) ∧
      result = int64 (line.foldl (fun value byte => value * 10 + digitValue byte) start : Nat) := by
  induction line generalizing start with
  | nil =>
      simp only [atoofLoop, Option.some.injEq] at parsed
      simp [← parsed]
  | cons byte line ih =>
      simp only [atoofLoop, Option.ite_none_right_eq_some] at parsed
      obtain ⟨digit, parsed⟩ := parsed
      have wrapped : int64 (int64 start * 10 + digitValue byte) = int64 (start * 10 + digitValue byte : Nat) := by
        simp only [int64]
        omega
      rw [wrapped] at parsed
      obtain ⟨digits, value⟩ := ih parsed
      refine ⟨?_, value⟩
      intro other member
      rcases List.mem_cons.mp member with rfl | later
      · exact digit
      · exact digits other later

theorem ngxAtoof_some {line : List UInt8} {length : Nat} (parsed : ngxAtoof line = some length) :
    (∀ byte ∈ line, isDigit byte = true) ∧ (length : Int) = int64 (decimal line) := by
  simp only [ngxAtoof, Option.ite_none_left_eq_some, Option.bind_eq_some_iff] at parsed
  obtain ⟨_, value, looped, nonnegative, exactly⟩ := parsed
  have zero : (0 : Int) = int64 (0 : Nat) := by decide
  rw [zero] at looped
  obtain ⟨digits, wrapped⟩ := atoofLoop_some looped
  refine ⟨digits, ?_⟩
  simp only [Option.some.injEq] at exactly
  rw [decimal, ← wrapped]
  omega

@[simp] theorem chainContent_nil : chainContent [] = [] := rfl

@[simp] theorem chainContent_cons (buf : Buf) (chain : List Buf) :
    chainContent (buf :: chain) = buf.content ++ chainContent chain := rfl

theorem lengthFilter_total (rest : Nat) {bufs : List Buf} (inMemory : ∀ buf ∈ bufs, buf.file = none) :
    (chainContent (lengthFilter rest bufs).1).length + (lengthFilter rest bufs).2 = rest := by
  induction bufs generalizing rest with
  | nil => cases rest <;> simp [lengthFilter]
  | cons buf bufs ih =>
      have memory := inMemory buf (by simp)
      cases rest with
      | zero => simp [lengthFilter]
      | succ rest =>
          simp only [lengthFilter]
          split
          · have later := ih (rest + 1 - (buf.last - buf.pos))
              fun buf member => inMemory buf (by simp [member])
            simp only [chainContent_cons, List.length_append, Buf.content, memory, Memory.window_length]
            omega
          · simp [Buf.content, memory]

theorem lengthFilter_ordered {rest : Nat} {bufs : List Buf} (ordered : ∀ buf ∈ bufs, buf.Ordered) :
    ∀ buf ∈ (lengthFilter rest bufs).1, buf.Ordered := by
  induction bufs generalizing rest with
  | nil => cases rest <;> simp [lengthFilter]
  | cons buf bufs ih =>
      have first := ordered buf (by simp)
      cases rest with
      | zero => simp [lengthFilter]
      | succ rest =>
          simp only [lengthFilter]
          split
          · intro other member
            rcases List.mem_cons.mp member with rfl | later
            · exact ⟨Nat.le_refl _, first.last⟩
            · exact ih (fun buf member => ordered buf (by simp [member])) other later
          · intro other member
            obtain rfl := List.mem_singleton.mp member
            exact ⟨Nat.le_refl _, Nat.le_add_right _ _⟩

theorem chunkedFilter_ordered {pieces : List Buf} (ordered : ∀ buf ∈ pieces, buf.Ordered) :
    ∀ buf ∈ chunkedFilter pieces, buf.Ordered := by
  intro buf member
  simp only [chunkedFilter, List.mem_append, List.mem_map, List.mem_singleton] at member
  rcases member with ⟨piece, listed, rfl⟩ | rfl
  · exact ⟨Nat.le_refl _, (ordered piece listed).last⟩
  · exact ⟨Nat.le_refl _, Nat.le_refl _⟩

theorem writeRequestBody_content (bufs : List Buf) :
    chainContent (writeRequestBody bufs) = chainContent bufs := by
  simp only [writeRequestBody]
  split
  · simp [*]
  · simp only [chainContent_cons, chainContent_nil, List.append_nil, Buf.content, Nat.sub_zero]
    exact Memory.ofList_window _ _

theorem writeRequestBody_ordered (bufs : List Buf) : ∀ buf ∈ writeRequestBody bufs, buf.Ordered := by
  intro buf member
  simp only [writeRequestBody] at member
  split at member
  · simp at member
  · obtain rfl := List.mem_singleton.mp member
    exact ⟨Nat.le_refl _, Nat.le_refl _⟩

theorem readClientRequestBody_ordered {headers : HeadersIn} {transfer : Transfer} {bufs : List Buf}
    (read : readClientRequestBody headers transfer = some bufs) : ∀ buf ∈ bufs, buf.Ordered := by
  have saved {chain : List Buf} (ordered : ∀ buf ∈ chain, buf.Ordered) :
      ∀ buf ∈ (if transfer.inFile then writeRequestBody chain else chain), buf.Ordered := by
    split
    · exact writeRequestBody_ordered chain
    · exact ordered
  simp only [readClientRequestBody] at read
  split at read
  · cases read
    exact saved (chunkedFilter_ordered transfer.ordered)
  · split at read
    · cases read
      simp
    · split at read
      · cases read
        exact saved (lengthFilter_ordered transfer.ordered)
      · contradiction

theorem readClientRequestBody_length {headers : HeadersIn} {transfer : Transfer} {bufs : List Buf}
    {length : Nat} (plain : headers.chunked = false) (declared : headers.contentLengthN = some length)
    (read : readClientRequestBody headers transfer = some bufs) :
    (chainContent bufs).length = length := by
  have total := lengthFilter_total length transfer.inMemory
  simp only [readClientRequestBody, plain, declared, Option.ite_none_right_eq_some, Option.some.injEq,
    Bool.false_eq_true, if_false] at read
  obtain ⟨complete, rfl⟩ := read
  rw [complete] at total
  split
  · rw [writeRequestBody_content]
    exact total
  · exact total

/-- A request as it reaches the location: its headers, the body that is about
to arrive, and the body that was read before an internal redirect, if there was
one.  `discardBody` stands for a body that is already being thrown away. -/
structure Incoming where
  method : Method
  contentLength : Option (List UInt8)
  transferEncoding : Option (List UInt8)
  unparsedUri : List UInt8
  host : Option (List UInt8)
  userAgent : Option (List UInt8)
  cookies : List (List UInt8)
  earlier : Option Transfer
  discardBody : Bool
  transfer : Transfer
  short : stringsLength [some unparsedUri, host, userAgent, cookies.head?] < 2147483648

/-- `r->request_body` when the upstream request is created; the outer `none` is
a request that does not get that far. -/
def Incoming.requestBody (incoming : Incoming) (headers : HeadersIn) : Option (Option (List Buf)) :=
  match incoming.earlier with
  | some transfer => (readClientRequestBody headers transfer).map some
  | none =>
      if incoming.method = .post ∧ incoming.discardBody = false then
        (readClientRequestBody headers incoming.transfer).map some
      else some none

theorem Incoming.requestBody_ordered {incoming : Incoming} {headers : HeadersIn}
    {body : Option (List Buf)} (found : incoming.requestBody headers = some body) :
    ∀ buf ∈ body.getD [], buf.Ordered := by
  simp only [requestBody] at found
  split at found
  · obtain ⟨bufs, read, rfl⟩ := Option.map_eq_some_iff.mp found
    exact readClientRequestBody_ordered read
  · split at found
    · obtain ⟨bufs, read, rfl⟩ := Option.map_eq_some_iff.mp found
      exact readClientRequestBody_ordered read
    · cases found
      simp

/-- `ngx_http_webapp_handler`, up to the call of `create_request`. -/
def Incoming.handler (incoming : Incoming) : Option NgxRequest :=
  match processRequestHeader incoming.method incoming.contentLength incoming.transferEncoding with
  | none => none
  | some headers =>
      if incoming.method.mask &&& (Method.get.mask ||| Method.head.mask ||| Method.post.mask) = 0 then none
      else
        match found : incoming.requestBody headers with
        | none => none
        | some body => some {
            method := incoming.method
            contentLength := headers.contentLength
            requestBody := body
            unparsedUri := incoming.unparsedUri
            host := incoming.host
            userAgent := incoming.userAgent
            cookies := incoming.cookies
            ordered := requestBody_ordered found
            short := incoming.short }

theorem processRequestHeader_some {method : Method} {contentLength transferEncoding : Option (List UInt8)}
    {headers : HeadersIn}
    (accepted : processRequestHeader method contentLength transferEncoding = some headers) :
    (headers = ⟨none, none, true⟩ ∧ transferEncoding.any (sameWord · chunkedWord) = true) ∨
      (headers.contentLength = contentLength ∧ headers.chunked = false ∧
        transferEncoding.any (sameWord · chunkedWord) = false ∧
        (∀ value, contentLength = some value →
          ∃ length, headers.contentLengthN = some length ∧ ngxAtoof value = some length) ∧
        (contentLength = none → headers.contentLengthN = none)) := by
  simp only [processRequestHeader, Option.bind_eq_some_iff] at accepted
  obtain ⟨contentLengthN, parsed, accepted⟩ := accepted
  have lengths : (∀ value, contentLength = some value →
        ∃ length, contentLengthN = some length ∧ ngxAtoof value = some length) ∧
      (contentLength = none → contentLengthN = none) := by
    cases contentLength with
    | none => simp at parsed; simp [parsed]
    | some value =>
        obtain ⟨length, found, rfl⟩ := Option.map_eq_some_iff.mp parsed
        simp [found]
  split at accepted
  · contradiction
  · split at accepted
    · cases accepted
      exact Or.inr ⟨rfl, rfl, rfl, lengths⟩
    · split at accepted
      · rename_i chunked
        cases accepted
        exact Or.inl ⟨rfl, by simpa using chunked⟩
      · rename_i plain
        split at accepted
        · cases accepted
          exact Or.inr ⟨rfl, rfl, by simpa using plain, lengths⟩
        · contradiction

theorem Incoming.handler_some {incoming : Incoming} {request : NgxRequest}
    (passed : incoming.handler = some request) :
    ∃ headers,
      processRequestHeader incoming.method incoming.contentLength incoming.transferEncoding = some headers ∧
        request.method = incoming.method ∧ request.contentLength = headers.contentLength ∧
        incoming.requestBody headers = some request.requestBody := by
  simp only [handler] at passed
  split at passed
  · contradiction
  · rename_i headers accepted
    split at passed
    · contradiction
    · split at passed
      · contradiction
      · rename_i body found
        cases passed
        exact ⟨headers, accepted, rfl, rfl, found⟩

theorem Incoming.requestBody_some {incoming : Incoming} {headers : HeadersIn} {bufs : List Buf}
    (found : incoming.requestBody headers = some (some bufs)) :
    ∃ transfer, readClientRequestBody headers transfer = some bufs := by
  simp only [requestBody] at found
  split at found
  · simp only [Option.map_eq_some_iff, Option.some.injEq, exists_eq_right] at found
    exact ⟨_, found⟩
  · split at found
    · simp only [Option.map_eq_some_iff, Option.some.injEq, exists_eq_right] at found
      exact ⟨_, found⟩
    · simp at found

def declaredLength (header : List UInt8) : Option Nat :=
  match unpackMany 2 header with
  | some ([_, .positiveInteger length], _) => some length
  | _ => none

theorem NgxRequest.headerBuf_declaredLength (pool : Pool) (request : NgxRequest) :
    declaredLength (request.headerBuf pool).content = some request.bodyLength := by
  have written := request.payload_length
  have short : stringsLength request.outputChain < 2147483648 := request.short
  have length := packUint64_encodes (d := request.payload.length) (by omega) request.payload
  have number := packUint64_encodes request.bodyLength_lt (request.packs.tail).flatten
  have payload : request.payload = packUint64 request.bodyLength ++ request.packs.tail.flatten := rfl
  rw [← payload] at number
  rw [request.headerBuf_content, declaredLength, NgxRequest.lengthBytes]
  simp only [unpackMany, length, number, Option.bind_some, List.drop_left, Option.map_some]

theorem readClientRequestBody_zero {headers : HeadersIn} {transfer : Transfer} {bufs : List Buf}
    (plain : headers.chunked = false)
    (empty : headers.contentLengthN = none ∨ headers.contentLengthN = some 0)
    (read : readClientRequestBody headers transfer = some bufs) : bufs = [] := by
  rcases empty with none | zero
  · simpa [readClientRequestBody, plain, none] using read.symm
  · have saved : (if transfer.inFile then writeRequestBody [] else []) = bufs := by
      simpa [readClientRequestBody, plain, zero, lengthFilter] using read
    rw [← saved]
    split <;> rfl

/-- `atoi` and `ngx_atoof` agree on a body that is not empty exactly when the
number fits an `int`. -/
theorem atoi_eq_iff {value : List UInt8} {length : Nat} (parsed : ngxAtoof value = some length)
    (nonempty : 0 < length) : sizeT (atoi value) = length ↔ decimal value < 2147483648 := by
  obtain ⟨digits, wrapped⟩ := ngxAtoof_some parsed
  rw [atoi, strtol_digits digits]
  simp only [sizeT, int32, int64] at wrapped ⊢
  omega

theorem NgxRequest.bodyLength_zero {request : NgxRequest}
    (unset : request.method ≠ .post ∨ request.contentLength = none ∨ request.requestBufs = []) :
    request.bodyLength = 0 := by
  rw [bodyLength]
  split
  · rename_i method contentLength requestBody
    rcases unset with other | absent | empty
    · exact absurd method other
    · simp [absent] at contentLength
    · simp [requestBufs, requestBody] at empty
  · rfl

/-- The packed body length is the length of the chained body exactly when there
is no body, or the request is a POST with a Content-Length below 2^31. -/
theorem declaredLength_iff (pool : Pool) (incoming : Incoming) (request : NgxRequest) (header : Buf)
    (body : List Buf) (passed : incoming.handler = some request)
    (created : request.createRequest pool = some (header :: body)) :
    declaredLength header.content = some (chainContent body).length ↔
      chainContent request.requestBufs = [] ∨
        (incoming.method = .post ∧ incoming.transferEncoding.any (sameWord · chunkedWord) = false ∧
          ∃ value, incoming.contentLength = some value ∧ decimal value < 2147483648) := by
  obtain ⟨headers, accepted, method, contentLength, found⟩ := incoming.handler_some passed
  obtain ⟨rfl, rfl⟩ := List.cons.inj (NgxRequest.createRequest_eq created)
  rw [request.headerBuf_declaredLength, Option.some.injEq]
  -- A request that packs zero is right exactly when it has no body.
  have undeclared (unset : request.method ≠ .post ∨ request.contentLength = none ∨ request.requestBufs = [])
      (implied : (incoming.method = .post ∧
        incoming.transferEncoding.any (sameWord · chunkedWord) = false ∧
        ∃ value, incoming.contentLength = some value ∧ decimal value < 2147483648) →
          chainContent request.requestBufs = []) :
      request.bodyLength = (chainContent request.requestBufs).length ↔
        chainContent request.requestBufs = [] ∨
          (incoming.method = .post ∧ incoming.transferEncoding.any (sameWord · chunkedWord) = false ∧
            ∃ value, incoming.contentLength = some value ∧ decimal value < 2147483648) := by
    rw [NgxRequest.bodyLength_zero unset, eq_comm, List.length_eq_zero_iff]
    exact ⟨Or.inl, fun either => either.elim id implied⟩
  rcases processRequestHeader_some accepted with ⟨rfl, chunked⟩ | ⟨same, plain, notChunked, lengths, absent⟩
  · exact undeclared (Or.inr (Or.inl contentLength)) (by simp [chunked])
  by_cases post : incoming.method = .post
  swap
  · exact undeclared (Or.inl (by rwa [method])) (fun declared => absurd declared.1 post)
  cases stored : request.requestBody with
  | none =>
      have empty : request.requestBufs = [] := by simp [NgxRequest.requestBufs, stored]
      exact undeclared (Or.inr (Or.inr empty)) (fun _ => by simp [empty])
  | some bufs =>
      rw [stored] at found
      obtain ⟨transfer, read⟩ := incoming.requestBody_some found
      have chained : request.requestBufs = bufs := by simp [NgxRequest.requestBufs, stored]
      cases given : incoming.contentLength with
      | none =>
          have empty := readClientRequestBody_zero plain (Or.inl (absent given)) read
          rw [← given]
          exact undeclared (Or.inr (Or.inr (chained.trans empty))) (fun _ => by simp [chained, empty])
      | some value =>
          obtain ⟨length, counted, parsed⟩ := lengths value given
          have total := readClientRequestBody_length plain counted read
          rw [← given]
          by_cases zero : length = 0
          · subst zero
            have empty := readClientRequestBody_zero plain (Or.inr counted) read
            exact undeclared (Or.inr (Or.inr (chained.trans empty))) (fun _ => by simp [chained, empty])
          · have packed : request.bodyLength = sizeT (atoi value) := by
              cases bufs with
              | nil => simp at total; omega
              | cons buf bufs =>
                  simp [NgxRequest.bodyLength, method, post, contentLength, same, given, stored]
            have nonempty : chainContent bufs ≠ [] := by
              intro empty
              rw [empty] at total
              exact zero total.symm
            rw [chained, packed, total, atoi_eq_iff parsed (by omega)]
            simp [nonempty, post, notChunked, given]

def Incoming.chunkedPost : Incoming where
  method := .post
  contentLength := none
  transferEncoding := some chunkedWord
  unparsedUri := [0x2f]
  host := none
  userAgent := none
  cookies := []
  earlier := none
  discardBody := false
  transfer := {
    pieces := [⟨fun _ => 0x41, 0, 0, 1, 1, none⟩]
    inFile := false
    ordered := List.forall_mem_singleton.mpr ⟨Nat.le_refl 0, Nat.zero_le 1⟩
    inMemory := List.forall_mem_singleton.mpr rfl }
  short := rootUri_short

def Incoming.plainPost : Incoming :=
  { chunkedPost with contentLength := some [0x31], transferEncoding := none }

theorem declaredLength_plainPost :
    ∃ request header body, Incoming.plainPost.handler = some request ∧
      request.createRequest Pool.zeroed = some (header :: body) ∧
      declaredLength header.content = some (chainContent body).length :=
  ⟨_, _, _, rfl, rfl, (declaredLength_iff Pool.zeroed Incoming.plainPost _ _ _ rfl rfl).mpr
    (Or.inr ⟨rfl, rfl, [0x31], rfl, by decide⟩)⟩

theorem declaredLength_chunkedPost :
    ∃ request header body, Incoming.chunkedPost.handler = some request ∧
      request.createRequest Pool.zeroed = some (header :: body) ∧
      declaredLength header.content = some 0 ∧ chainContent body = [0x41] ∧
      declaredLength header.content ≠ some (chainContent body).length :=
  ⟨_, _, _, rfl, rfl, by decide, by decide, by decide⟩

end Webapp.Nginx

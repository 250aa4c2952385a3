import Webapp.Data.Decimal
import Webapp.MsgPack.Objects
import Webapp.Nginx.Buffer

namespace Webapp.Nginx

open Webapp.Data Webapp.MsgPack

inductive Method where
  | unknown
  | get
  | head
  | post
  | put
  | delete
  | mkcol
  | copy
  | move
  | options
  | propfind
  | proppatch
  | lock
  | unlock
  | patch
  | trace
deriving DecidableEq, Repr

/-- `NGX_HTTP_UNKNOWN` to `NGX_HTTP_TRACE`: one bit each. -/
def Method.mask : Method → Nat
  | unknown => 0x0001
  | get => 0x0002
  | head => 0x0004
  | post => 0x0008
  | put => 0x0010
  | delete => 0x0020
  | mkcol => 0x0040
  | copy => 0x0080
  | move => 0x0100
  | options => 0x0200
  | propfind => 0x0400
  | proppatch => 0x0800
  | lock => 0x1000
  | unlock => 0x2000
  | patch => 0x4000
  | trace => 0x8000

def stringsLength (chain : List (Option (List UInt8))) : Nat :=
  (chain.map fun string => (string.getD []).length).sum

/-- The part of `ngx_http_request_t` that `create_request` reads: `none` is a
`NULL` header, `cookies` the array of `Cookie` headers, and `requestBody` is
`request_body` with its `bufs`.  The strings come out of nginx's header buffers
and are counted with an `int`. -/
structure NgxRequest where
  method : Method
  contentLength : Option (List UInt8)
  requestBody : Option (List Buf)
  unparsedUri : List UInt8
  host : Option (List UInt8)
  userAgent : Option (List UInt8)
  cookies : List (List UInt8)
  ordered : ∀ buf ∈ requestBody.getD [], buf.Ordered
  short : stringsLength [some unparsedUri, host, userAgent, cookies.head?] < 2147483648

/-- Where `ngx_create_temp_buf` gets its blocks from: the sizes it can serve,
and what its blocks hold before they are written. -/
structure Pool where
  serves : Nat → Bool
  contents : Nat → Memory UInt8

def sizeofNumber : Nat := 9

namespace NgxRequest

/-- `u->request_bufs`, as `ngx_http_upstream_init_request` sets it. -/
def requestBufs (request : NgxRequest) : List Buf := request.requestBody.getD []

/-- `request_body.len`: `atoi` of the header, converted to `size_t`. -/
def bodyLength (request : NgxRequest) : Nat :=
  match request.method, request.contentLength, request.requestBody with
  | .post, some value, some (_ :: _) => sizeT (atoi value)
  | _, _, _ => 0

def outputChain (request : NgxRequest) : List (Option (List UInt8)) :=
  [some request.unparsedUri, request.host, request.userAgent, request.cookies.head?]

def total (request : NgxRequest) : Int :=
  request.outputChain.foldl (fun total string => int32 (total + (string.getD []).length)) 0

/-- The size of the header buffer: two arrays, the reserved number, four raws,
two numbers and the strings. -/
def capacity (request : NgxRequest) : Nat :=
  sizeT (int32 (5 * 2 + sizeofNumber + 4 * 5 + 2 * sizeofNumber + request.total))

end NgxRequest

def packString : Option (List UInt8) → List (List UInt8)
  | some string => [packRaw string.length, packRawBody string]
  | none => [packNil]

namespace NgxRequest

def packs (request : NgxRequest) : List (List UInt8) :=
  packUint64 request.bodyLength :: packInt (int32 request.method.mask) ::
    request.outputChain.flatMap packString

def reserved (pool : Pool) (request : NgxRequest) : Buf :=
  let b := Buf.createTemp (pool.contents 0) request.capacity
  { b with last := b.last + sizeofNumber }

def headerLengthBuf (pool : Pool) (b : Buf) : Buf :=
  (Buf.createTemp (pool.contents 1) sizeofNumber).msgpackWrite
    (packUint64 (b.last - b.start - sizeofNumber))

/-- Copy the packed length to the end of the reserved room and start there. -/
def storeLength (b lengthBuf : Buf) : Buf :=
  let offset := sizeofNumber - (lengthBuf.last - lengthBuf.start)
  { b with
    memory := b.memory.store (b.start + offset)
      (lengthBuf.memory.window lengthBuf.start (sizeofNumber - offset))
    pos := b.pos + offset }

def packed (pool : Pool) (request : NgxRequest) : Buf :=
  request.packs.foldl Buf.msgpackWrite (request.reserved pool)

def headerBuf (pool : Pool) (request : NgxRequest) : Buf :=
  storeLength (request.packed pool) (headerLengthBuf pool (request.packed pool))

/-- `ngx_http_webapp_create_request`: the new `u->request_bufs`, or `none` for
`NGX_ERROR`.  The buffers of the body are copied, not moved. -/
def createRequest (pool : Pool) (request : NgxRequest) : Option (List Buf) :=
  if pool.serves request.capacity then some (request.headerBuf pool :: request.requestBufs)
  else none

end NgxRequest

def stringObject : Option (List UInt8) → Object
  | some string => .raw string
  | none => .nil

theorem packString_length (string : Option (List UInt8)) :
    (packString string).flatten.length ≤ 5 + (string.getD []).length := by
  cases string with
  | none => simp [packString, packNil]
  | some string =>
      have header := packRaw_length string.length
      simp [packString, packRawBody]
      omega

theorem packString_encodes {string : Option (List UInt8)} (bounded : (string.getD []).length < 2 ^ 32) :
    Encodes (packString string).flatten (stringObject string) := by
  cases string with
  | none => simpa [packString, stringObject] using packNil_encodes
  | some string => simpa [packString, stringObject] using packRaw_encodes string bounded

theorem packStrings_length (chain : List (Option (List UInt8))) :
    (chain.flatMap packString).flatten.length ≤ 5 * chain.length + stringsLength chain := by
  induction chain with
  | nil => simp
  | cons string chain ih =>
      have first := packString_length string
      simp only [stringsLength] at ih ⊢
      simp only [List.flatMap_cons, List.flatten_append, List.length_append, List.length_cons,
        List.map_cons, List.sum_cons]
      omega

theorem string_length_le {chain : List (Option (List UInt8))} {string : Option (List UInt8)}
    (member : string ∈ chain) : (string.getD []).length ≤ stringsLength chain := by
  induction chain with
  | nil => simp at member
  | cons first chain ih =>
      simp only [stringsLength, List.map_cons, List.sum_cons] at ih ⊢
      rcases List.mem_cons.mp member with rfl | later
      · omega
      · have bound := ih later
        omega

theorem foldl_total (chain : List (Option (List UInt8))) (start : Nat)
    (small : start + stringsLength chain < 2147483648) :
    chain.foldl (fun total string => int32 (total + (string.getD []).length)) (start : Int) =
      (start + stringsLength chain : Nat) := by
  induction chain generalizing start with
  | nil => simp [stringsLength]
  | cons string chain ih =>
      simp only [stringsLength, List.map_cons, List.sum_cons] at small ih ⊢
      have step : int32 ((start : Int) + (string.getD []).length) =
          (start + (string.getD []).length : Nat) := by
        rw [int32_of_range] <;> omega
      rw [List.foldl_cons, step, ih _ (by omega), Nat.add_assoc]

namespace NgxRequest

def payload (request : NgxRequest) : List UInt8 := request.packs.flatten

def objects (request : NgxRequest) : List Object :=
  .positiveInteger request.bodyLength :: .positiveInteger request.method.mask ::
    request.outputChain.map stringObject

def encodings (request : NgxRequest) : List (List UInt8 × Object) :=
  (packUint64 request.bodyLength, .positiveInteger request.bodyLength) ::
    (packInt (int32 request.method.mask), .positiveInteger request.method.mask) ::
    request.outputChain.map fun string => ((packString string).flatten, stringObject string)

variable (pool : Pool) (request : NgxRequest)

variable {pool request} in
theorem createRequest_eq {chain : List Buf} (created : request.createRequest pool = some chain) :
    chain = request.headerBuf pool :: request.requestBufs := by
  simp only [createRequest, Option.ite_none_right_eq_some, Option.some.injEq] at created
  exact created.2.symm

theorem bodyLength_lt : request.bodyLength < 2 ^ 64 := by
  rw [bodyLength]
  split
  · exact sizeT_lt _
  · decide

theorem payload_length : request.payload.length ≤ 34 + stringsLength request.outputChain := by
  have number := packUint64_length request.bodyLength
  have method := packInt_length (int32 request.method.mask)
  have strings := packStrings_length request.outputChain
  have four : request.outputChain.length = 4 := rfl
  simp only [payload, packs, List.flatten_cons, List.length_append]
  omega

theorem capacity_le : 57 + stringsLength request.outputChain ≤ request.capacity := by
  have short : stringsLength request.outputChain < 2147483648 := request.short
  have total : request.total = stringsLength request.outputChain := by
    have sum := foldl_total request.outputChain 0 (by omega)
    simpa [NgxRequest.total] using sum
  rw [capacity, total]
  simp only [sizeofNumber, sizeT, int32]
  omega

theorem unpackMany_payload (rest : List UInt8) :
    unpackMany 6 (request.payload ++ rest) = some (request.objects, rest) := by
  have short : stringsLength request.outputChain < 2147483648 := request.short
  have method : Encodes (packInt (int32 request.method.mask)) (.positiveInteger request.method.mask) := by
    have small : int32 request.method.mask = request.method.mask := by
      cases request.method <;> rfl
    have range : (request.method.mask : Int) < 2 ^ 31 := by cases request.method <;> decide
    have encoded := packInt_encodes (d := request.method.mask) (by omega) range
    rw [small]
    simpa [integerObject] using encoded
  have strings (string : Option (List UInt8)) (listed : string ∈ request.outputChain) :
      Encodes (packString string).flatten (stringObject string) := by
    have bound := string_length_le listed
    exact packString_encodes (by omega)
  have encodings : ∀ encoding ∈ request.encodings, Encodes encoding.1 encoding.2 := by
    intro encoding member
    simp only [encodings, List.mem_cons, List.mem_map] at member
    rcases member with rfl | rfl | ⟨string, listed, rfl⟩
    · exact packUint64_encodes request.bodyLength_lt
    · simpa only using method
    · exact strings string listed
  have bytes : (request.encodings.map Prod.fst).flatten = request.payload := by
    simp [NgxRequest.encodings, payload, packs, outputChain]
  have objects : request.encodings.map Prod.snd = request.objects := by
    simp [NgxRequest.encodings, NgxRequest.objects]
  have decoded := unpackMany_encodings encodings rest
  rwa [bytes, objects] at decoded

theorem reserved_fields :
    (request.reserved pool).start = 0 ∧ (request.reserved pool).pos = 0 ∧
      (request.reserved pool).last = 9 ∧ (request.reserved pool).finish = request.capacity ∧
      (request.reserved pool).file = none := by
  simp only [reserved, Buf.createTemp, sizeofNumber, Nat.zero_add, and_self]

def lengthBytes : List UInt8 := packUint64 request.payload.length

theorem lengthBytes_length : 0 < request.lengthBytes.length ∧ request.lengthBytes.length ≤ 9 := by
  refine ⟨?_, packUint64_length _⟩
  rw [lengthBytes, packUint64_eq_encode, UintForm.encode_length]
  exact UintForm.size_pos _

theorem packed_last : (request.packed pool).last = 9 + request.payload.length := by
  rw [packed, Buf.writes_last, (request.reserved_fields pool).2.2.1, payload]

theorem packed_frame :
    (request.packed pool).start = 0 ∧ (request.packed pool).pos = 0 ∧
      (request.packed pool).finish = request.capacity ∧ (request.packed pool).file = none := by
  obtain ⟨start, pos, finish, file⟩ := Buf.writes_frame (request.reserved pool) request.packs
  obtain ⟨start', pos', last, finish', file'⟩ := request.reserved_fields pool
  exact ⟨start.trans start', pos.trans pos', finish.trans finish', file.trans file'⟩

theorem packed_window :
    (request.packed pool).memory.window 9 request.payload.length = request.payload := by
  have ends : 9 + 0 = (request.reserved pool).last := (request.reserved_fields pool).2.2.1.symm
  have extended := Buf.writes_window (request.reserved pool) request.packs ends
  rw [Nat.zero_add, Memory.window_zero, List.nil_append] at extended
  rw [packed, payload, extended]

theorem headerLengthBuf_bytes :
    (headerLengthBuf pool (request.packed pool)).start = 0 ∧
      (headerLengthBuf pool (request.packed pool)).last = request.lengthBytes.length ∧
      (headerLengthBuf pool (request.packed pool)).memory.window 0 request.lengthBytes.length =
        request.lengthBytes := by
  have size : (request.packed pool).last - (request.packed pool).start - sizeofNumber =
      request.payload.length := by
    rw [packed_last, (request.packed_frame pool).1, sizeofNumber]
    omega
  simp only [headerLengthBuf, size, Buf.msgpackWrite, Buf.createTemp, Nat.zero_add]
  exact ⟨trivial, rfl, Memory.window_store_self _ _ _⟩

theorem headerBuf_eq :
    request.headerBuf pool = { request.packed pool with
      memory := (request.packed pool).memory.store (9 - request.lengthBytes.length) request.lengthBytes
      pos := 9 - request.lengthBytes.length } := by
  obtain ⟨start, pos, finish, file⟩ := request.packed_frame pool
  obtain ⟨lengthStart, lengthLast, bytes⟩ := request.headerLengthBuf_bytes pool
  have size := request.lengthBytes_length
  have offset : sizeofNumber - (sizeofNumber - request.lengthBytes.length) = request.lengthBytes.length := by
    simp only [sizeofNumber]
    omega
  simp only [headerBuf, storeLength, lengthStart, lengthLast, Nat.sub_zero, offset, bytes, start, pos, Nat.zero_add]
  simp only [sizeofNumber]

theorem headerBuf_content : (request.headerBuf pool).content = request.lengthBytes ++ request.payload := by
  obtain ⟨start, pos, finish, file⟩ := request.packed_frame pool
  have size := request.lengthBytes_length
  have whole : 9 + request.payload.length - (9 - request.lengthBytes.length) =
      request.lengthBytes.length + request.payload.length := by omega
  rw [headerBuf_eq, Buf.content]
  simp only [file, packed_last, whole]
  rw [Memory.window_add, Memory.window_store_self, Memory.window_store_frame _ (by omega)]
  have behind : 9 - request.lengthBytes.length + request.lengthBytes.length = 9 := by omega
  rw [behind, packed_window]

end NgxRequest

def Pool.zeroed : Pool where
  serves := fun _ => true
  contents := fun _ _ => 0

theorem rootUri_short : stringsLength [some [0x2f], none, none, none] < 2147483648 := by decide

def NgxRequest.getRoot : NgxRequest where
  method := .get
  contentLength := none
  requestBody := none
  unparsedUri := [0x2f]
  host := none
  userAgent := none
  cookies := []
  ordered := by simp
  short := rootUri_short

/-- For every request whose strings fit the `int` counter the header buffer is
never overrun, and what is sent is the shortest encoding of the payload's length
followed by a payload that decodes to the fields of the request and nothing else. -/
theorem createRequest_roundTrip (pool : Pool) (request : NgxRequest)
    (served : pool.serves request.capacity = true) :
    ∃ header, request.createRequest pool = some (header :: request.requestBufs) ∧
      (∀ count, ((request.packs.take count).foldl Buf.msgpackWrite (request.reserved pool)).last ≤
        header.finish) ∧
      header.last ≤ header.finish ∧
      ∃ payload form, header.content = UintForm.encode form payload.length ++ payload ∧
        payload.length < form.limit ∧
        (∀ other : UintForm, payload.length < other.limit → form.size ≤ other.size) ∧
        unpackMany 6 payload = some
          ([.positiveInteger request.bodyLength, .positiveInteger request.method.mask,
            .raw request.unparsedUri, stringObject request.host, stringObject request.userAgent,
            stringObject request.cookies.head?], []) := by
  have room : 9 + request.payload.length ≤ request.capacity := by
    have written := request.payload_length
    have capacity := request.capacity_le
    omega
  have finish : (request.headerBuf pool).finish = request.capacity := by
    rw [request.headerBuf_eq]
    exact (request.packed_frame pool).2.2.1
  refine ⟨request.headerBuf pool, by simp [NgxRequest.createRequest, served], ?_, ?_,
    request.payload, .shortest request.payload.length, ?_, ?_, fun other => UintForm.shortest_minimal, ?_⟩
  · intro count
    have whole : (request.packs.take count).flatten ++ (request.packs.drop count).flatten =
        request.payload := by
      rw [← List.flatten_append, List.take_append_drop, NgxRequest.payload]
    have shorter := congrArg List.length whole
    rw [List.length_append] at shorter
    rw [finish, Buf.writes_last, (request.reserved_fields pool).2.2.1]
    omega
  · rw [finish, request.headerBuf_eq]
    simp only [request.packed_last]
    exact room
  · rw [request.headerBuf_content, NgxRequest.lengthBytes, packUint64_eq_encode]
  · have written := request.payload_length
    have short : stringsLength request.outputChain < 2147483648 := request.short
    exact UintForm.shortest_fits (by omega)
  · simpa [NgxRequest.objects, NgxRequest.outputChain, stringObject] using request.unpackMany_payload []

theorem formStrings_short :
    stringsLength [some [0x2f, 0x66], some [0x61], none, some [0x73, 0x3d, 0x31]] < 2147483648 := by decide

/-- `POST /f` with the body `x=1`, for the host `a` and with the cookie `s=1`. -/
def NgxRequest.postForm : NgxRequest where
  method := .post
  contentLength := some [0x33]
  requestBody := some [⟨Memory.store (fun _ => 0) 0 [0x78, 0x3d, 0x31], 0, 0, 3, 3, none⟩]
  unparsedUri := [0x2f, 0x66]
  host := some [0x61]
  userAgent := none
  cookies := [[0x73, 0x3d, 0x31]]
  ordered := List.forall_mem_singleton.mpr ⟨Nat.le_refl 0, Nat.zero_le 3⟩
  short := formStrings_short

theorem createRequest_roundTrip_postForm :
    Pool.zeroed.serves NgxRequest.postForm.capacity = true ∧
      ∃ header payload form,
        NgxRequest.postForm.createRequest Pool.zeroed = some (header :: NgxRequest.postForm.requestBufs) ∧
        header.content = UintForm.encode form payload.length ++ payload ∧
        unpackMany 6 payload = some ([.positiveInteger 3, .positiveInteger 8, .raw [0x2f, 0x66], .raw [0x61], .nil,
          .raw [0x73, 0x3d, 0x31]], []) := by
  obtain ⟨header, created, _, _, payload, form, content, _, _, unpacked⟩ :=
    createRequest_roundTrip Pool.zeroed NgxRequest.postForm rfl
  exact ⟨rfl, header, payload, form, created, content, unpacked⟩

end Webapp.Nginx

import Webapp.Nginx.CreateRequest

namespace Webapp.Nginx

open Webapp.Data Webapp.MsgPack

def chainContent (chain : List Buf) : List UInt8 := (chain.map Buf.content).flatten

/-- Sending moves `pos`, or `file_pos`, over the bytes that went out. -/
def Buf.advance (buf : Buf) (count : Nat) : Buf :=
  { buf with
    pos := buf.pos + count
    file := buf.file.map fun range => { range with filePos := range.filePos + count } }

def Buf.reinit (buf : Buf) : Buf :=
  { buf with
    pos := buf.start
    file := buf.file.map fun range => { range with filePos := 0 } }

/-- `ngx_http_upstream_reinit` on `u->request_bufs`.  The callback
`ngx_http_webapp_reinit_request` only clears `r->state`. -/
def upstreamReinit (chain : List Buf) : List Buf := chain.map Buf.reinit

/-- An attempt that sends `sent index` bytes of each buffer and is given up. -/
def failedAttempt (chain : List Buf) (sent : Nat → Nat) : List Buf :=
  upstreamReinit (chain.mapIdx fun index buf => buf.advance (sent index))

def afterAttempts (chain : List Buf) (attempts : List (Nat → Nat)) : List Buf :=
  attempts.foldl failedAttempt chain

theorem Buf.reinit_advance (buf : Buf) (count : Nat) : (buf.advance count).reinit = buf.reinit := by
  simp [advance, reinit, Function.comp_def]

theorem Buf.reinit_reinit (buf : Buf) : buf.reinit.reinit = buf.reinit := by
  simp [reinit, Function.comp_def]

theorem failedAttempt_eq (chain : List Buf) (sent : Nat → Nat) :
    failedAttempt chain sent = upstreamReinit chain := by
  apply List.ext_getElem?
  intro index
  simp [failedAttempt, upstreamReinit, Option.map_map, Function.comp_def, Buf.reinit_advance]

theorem upstreamReinit_idempotent (chain : List Buf) :
    upstreamReinit (upstreamReinit chain) = upstreamReinit chain := by
  simp [upstreamReinit, Function.comp_def, Buf.reinit_reinit]

theorem afterAttempts_eq (chain : List Buf) {attempts : List (Nat → Nat)} (failed : attempts ≠ []) :
    afterAttempts chain attempts = upstreamReinit chain := by
  induction attempts generalizing chain with
  | nil => contradiction
  | cons sent attempts ih =>
      simp only [afterAttempts, List.foldl_cons, failedAttempt_eq] at ih ⊢
      cases attempts with
      | nil => rfl
      | cons next attempts => rw [ih _ (by simp), upstreamReinit_idempotent]

theorem Buf.reinit_content_length {buf : Buf} (ordered : buf.Ordered) :
    buf.content.length ≤ buf.reinit.content.length := by
  have pos := ordered.pos
  cases found : buf.file with
  | none =>
      simp only [content, reinit, found, Option.map_none, Memory.window_length]
      omega
  | some range =>
      simp only [content, reinit, found, Option.map_some, Memory.window_length]
      omega

theorem upstreamReinit_length {chain : List Buf} (ordered : ∀ buf ∈ chain, buf.Ordered) :
    (chainContent chain).length ≤ (chainContent (upstreamReinit chain)).length := by
  induction chain with
  | nil => simp [chainContent, upstreamReinit]
  | cons buf chain ih =>
      have first := Buf.reinit_content_length (ordered buf (by simp))
      have later := ih fun buf member => ordered buf (by simp [member])
      simp only [chainContent, upstreamReinit, List.map_cons, List.flatten_cons,
        List.length_append] at later ⊢
      omega

/-- The length takes at most five of the nine reserved bytes, so that `start`
lies before the first byte that is meant to be sent. -/
theorem NgxRequest.headerBuf_reinit_length (pool : Pool) (request : NgxRequest) :
    (request.headerBuf pool).content.length + 4 ≤ (request.headerBuf pool).reinit.content.length := by
  obtain ⟨start, pos, finish, file⟩ := request.packed_frame pool
  have written := request.payload_length
  have short : stringsLength request.outputChain < 2147483648 := request.short
  have size : request.lengthBytes.length ≤ 5 := by
    have fits : request.payload.length < UintForm.uint32.limit := by
      simp only [UintForm.limit, UintForm.trail]
      omega
    rw [lengthBytes, packUint64_eq_encode, UintForm.encode_length]
    exact UintForm.shortest_minimal fits
  rw [headerBuf_eq]
  simp only [Buf.content, Buf.reinit, file, Option.map_none, Memory.window_length, start,
    request.packed_last]
  omega

/-- No request is ever repeated: every attempt after the first one sends at
least four bytes more. -/
theorem afterAttempts_differs (pool : Pool) (request : NgxRequest) (chain : List Buf)
    (created : request.createRequest pool = some chain) (attempts : List (Nat → Nat))
    (failed : attempts ≠ []) :
    chainContent (afterAttempts chain attempts) ≠ chainContent chain := by
  have linked := NgxRequest.createRequest_eq created
  have header := request.headerBuf_reinit_length pool
  have body := upstreamReinit_length request.ordered
  intro same
  have lengths := congrArg List.length same
  rw [afterAttempts_eq chain failed, linked] at lengths
  simp only [chainContent, upstreamReinit, List.map_cons, List.flatten_cons, List.length_append,
    NgxRequest.requestBufs] at lengths body
  omega

theorem afterAttempts_differs_getRoot :
    ∃ chain, NgxRequest.getRoot.createRequest Pool.zeroed = some chain ∧
      chainContent (afterAttempts chain [fun _ => 0]) ≠ chainContent chain :=
  ⟨_, rfl, afterAttempts_differs Pool.zeroed NgxRequest.getRoot _ rfl [fun _ => 0] (by simp)⟩

/-- The retried `GET /` begins with the eight unused bytes of the reserved room. -/
theorem afterAttempts_getRoot_bytes :
    ∃ chain, NgxRequest.getRoot.createRequest Pool.zeroed = some chain ∧
      chainContent chain = [0x07, 0x00, 0x02, 0xa1, 0x2f, 0xc0, 0xc0, 0xc0] ∧
      chainContent (afterAttempts chain [fun _ => 0]) =
        [0, 0, 0, 0, 0, 0, 0, 0, 0x07, 0x00, 0x02, 0xa1, 0x2f, 0xc0, 0xc0, 0xc0] ∧
      chainContent (afterAttempts chain [fun _ => 0]) ≠ chainContent chain :=
  ⟨_, rfl, by decide, by decide, by decide⟩

end Webapp.Nginx

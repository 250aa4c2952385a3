import Webapp.Data.Ranges
import Webapp.Nginx.Filter

namespace Webapp.Nginx

open Webapp.Data Webapp.MsgPack

/-! A response on its way through the one buffer of `u->buffer`: the header is read
into it by `ngx_http_upstream_process_header`, what came behind the header is
delivered by `ngx_http_upstream_send_response`, and the rest goes through the loop of
`ngx_http_upstream_process_non_buffered_request`, which writes to the client as much
as its connection takes and uses the buffer again when nothing in it is busy.
-/

inductive Finalized where
  | done
  | error
  | internalServerError
  | badGateway
  | gatewayTimeOut
  | requestTimeOut
  | nextUpstream
deriving DecidableEq, Repr

/-- Where the request waits: for the header, inside the loop before
`ngx_http_output_filter` or `upstream->recv`, or outside it for an event. -/
inductive RelayStage where
  | header
  | write
  | recv
  | idle
  | finalized (rc : Finalized)
deriving DecidableEq, Repr

/-- How `ngx_http_send_header` ends: it fails, or it leaves `r->header_only` set, as for
a `HEAD` request, or the body is to follow. -/
inductive SendHeader where
  | failed
  | only
  | sent
deriving DecidableEq, Repr

structure Relay where
  bufferSize : Nat
  sendHeader : SendHeader
  memory : Memory UInt8
  upstream : Upstream
  body : Body
  busyBufs : List (Nat × Nat)
  ready : Bool
  eof : Bool
  error : Bool
  stage : RelayStage
  unread : List UInt8
  delivered : List UInt8

inductive RelayEvent where
  /-- `recv` returned `count` bytes and left `read->ready` as `ready`; `freeBuf` is
  whether the filter finds a buffer to chain. -/
  | received (count : Nat) (ready freeBuf : Bool)
  | again
  | closed
  | failed
  /-- The client's connection took `count` bytes of the chain. -/
  | wrote (count : Nat)
  | writeFailed
  | readable
  | writable
  | readTimedOut
  | writeTimedOut
deriving DecidableEq, Repr

namespace Relay

def start (bufferSize : Nat) (sendHeader : SendHeader) (memory : Memory UInt8) (stream : List UInt8) : Relay where
  bufferSize := bufferSize
  sendHeader := sendHeader
  memory := memory
  upstream := Upstream.fresh
  body := ⟨-1, -1, 0, [], 0⟩
  busyBufs := []
  ready := true
  eof := false
  error := false
  stage := .header
  unread := stream
  delivered := []

/-- What no step changes. -/
def setup (relay : Relay) : Nat × SendHeader := (relay.bufferSize, relay.sendHeader)

def finalize (relay : Relay) (rc : Finalized) : Relay := { relay with stage := .finalized rc }

def receive (relay : Relay) (count : Nat) (ready : Bool) : Relay :=
  { relay with
    memory := relay.memory.store relay.body.last (relay.unread.take count)
    unread := relay.unread.drop count
    ready := ready }

def awaitRecv (relay : Relay) : Relay :=
  { relay with stage := if relay.body.last < relay.bufferSize ∧ relay.ready = true then .recv else .idle }

/-- `ngx_http_upstream_process_non_buffered_request` up to its first call. -/
def processRequest (relay : Relay) (doWrite : Bool) : Relay :=
  if doWrite = true ∨ relay.body.length = 0 then { relay with stage := .write } else relay.awaitRecv

def inputFilter (relay : Relay) (count : Nat) (freeBuf : Bool) : Relay :=
  match relay.body.filter count freeBuf with
  | some body => { relay with body := body, stage := .write }
  | none => relay.finalize .error

def sendBody (relay : Relay) (freeBuf : Bool) : Relay :=
  let count := relay.body.last - relay.upstream.pos
  let body := Body.filterInit relay.upstream
  if count ≠ 0 then { relay with body := body }.inputFilter count freeBuf
  else
    let relay := { relay with body := { body with last := 0 } }
    if relay.ready = true ∨ relay.body.length = 0 then relay.processRequest false
    else { relay with stage := .idle }

/-- `ngx_http_upstream_send_response`.  The module neither caches nor stores, so a
request for the header only ends here. -/
def sendResponse (relay : Relay) (freeBuf : Bool) : Relay :=
  match relay.sendHeader with
  | .failed => relay.finalize .error
  | .only => relay.finalize .done
  | .sent => relay.sendBody freeBuf

def headerRead (relay : Relay) (u : Upstream) (last : Nat) : Relay :=
  { relay with upstream := u, body := { relay.body with last := last } }

def processHeader (surroundings : Surroundings) (relay : Relay) (count : Nat) (freeBuf : Bool) : Relay :=
  let last := relay.body.last + count
  let result := { relay.upstream with received := relay.memory.window 0 last }.processHeader surroundings
  let relay := relay.headerRead result.1 last
  match result.2 with
  | .again => if last = relay.bufferSize then relay.finalize .nextUpstream else relay
  | .error => relay.finalize .internalServerError
  | .ok => relay.sendResponse freeBuf

def chain (relay : Relay) : List (Nat × Nat) := relay.busyBufs ++ relay.body.outBufs

/-- `ngx_http_output_filter` and `ngx_chain_update_chains`. -/
def output (relay : Relay) (count : Nat) : Relay :=
  { relay with
    delivered := relay.delivered ++ (relay.memory.ranges relay.chain).take count
    busyBufs := dropTaken (takeFront relay.chain count)
    body := relay.body.write false }

def write (relay : Relay) (count : Nat) : Relay :=
  let relay := relay.output count
  if relay.busyBufs = [] then
    if relay.body.length = 0 ∨ (relay.eof = true ∧ relay.body.length = -1) then relay.finalize .done
    else if relay.eof = true ∨ relay.error = true then relay.finalize .badGateway
    else { relay with body := { relay.body with last := 0 } }.awaitRecv
  else relay.awaitRecv

def step (surroundings : Surroundings) (relay : Relay) : RelayEvent → Option Relay
  | .received count ready freeBuf =>
      if 0 < count ∧ count ≤ relay.unread.length ∧ count ≤ relay.bufferSize - relay.body.last then
        match relay.stage with
        | .header => some ((relay.receive count ready).processHeader surroundings count freeBuf)
        | .recv => some ((relay.receive count ready).inputFilter count freeBuf)
        | _ => none
      else none
  | .again =>
      match relay.stage with
      | .header => some { relay with ready := false }
      | .recv => some { relay with ready := false, stage := .idle }
      | _ => none
  | .closed =>
      if relay.unread = [] then
        match relay.stage with
        | .header => some (relay.finalize .nextUpstream)
        | .recv => some { relay with ready := false, eof := true, stage := .write }
        | _ => none
      else none
  | .failed =>
      match relay.stage with
      | .header => some (relay.finalize .nextUpstream)
      | .recv => some { relay with ready := false, error := true, stage := .write }
      | _ => none
  | .wrote count =>
      if relay.stage = .write ∧ count ≤ (relay.memory.ranges relay.chain).length then some (relay.write count)
      else none
  | .writeFailed => if relay.stage = .write ∧ relay.chain ≠ [] then some (relay.finalize .error) else none
  | .readable => if relay.stage = .idle then some ({ relay with ready := true }.processRequest false) else none
  | .writable => if relay.stage = .idle then some (relay.processRequest true) else none
  | .readTimedOut =>
      match relay.stage with
      | .header => some (relay.finalize .nextUpstream)
      | .idle => some (relay.finalize .gatewayTimeOut)
      | _ => none
  | .writeTimedOut => if relay.stage = .idle then some (relay.finalize .requestTimeOut) else none

/-- The header is not complete, and the buffer holds what has come of it. -/
structure Awaiting (response : Response) (relay : Relay) : Prop where
  arrived : relay.memory.window 0 relay.body.last ++ relay.unread = response.bytes
  incomplete : relay.body.last < response.headerSize
  begun : (relay.body.last = 0 ∧ relay.upstream.pos = 0 ∧ relay.upstream.setCookie = []) ∨
    relay.upstream.Settled response
  unsent : relay.chain = [] ∧ relay.delivered = []
  clean : relay.eof = false ∧ relay.error = false

def Decoded (response : Response) (relay : Relay) : Prop :=
  relay.upstream.contentType = response.contentType ∧
    relay.upstream.setCookie = if response.cookie = [] then [] else [response.cookie]

/-- The header is through and the request is not finalized. -/
def Busy (relay : Relay) : Prop := relay.stage = .write ∨ relay.stage = .recv ∨ relay.stage = .idle

/-- The request has not ended, or it has ended well. -/
structure Unfailed (relay : Relay) : Prop where
  stage : ∀ rc, relay.stage = .finalized rc → rc = .done
  error : relay.error = false

/-- Every byte of the body is with the client, in the chain or still to be read, and
the filter counts the last of these. -/
structure Relaying (response : Response) (relay : Relay) : Prop where
  whole : relay.delivered ++ (relay.memory.ranges relay.chain ++ relay.unread) = response.body
  within : Within relay.body.last relay.chain
  room : relay.body.last ≤ relay.bufferSize
  missing : relay.body.length = relay.unread.length
  closed : relay.eof = true → relay.unread = []
  decoded : relay.Decoded response
  sent : relay.sendHeader = .sent

/-- What the client is to get behind the header. -/
def owed (response : Response) (relay : Relay) : List UInt8 := if relay.sendHeader = .only then [] else response.body

inductive Follows (response : Response) (relay : Relay) : Prop
  | header (stage : relay.stage = .header) (awaiting : relay.Awaiting response)
  | body (busy : relay.Busy) (relaying : relay.Relaying response)
  | done (stage : relay.stage = .finalized .done) (all : relay.delivered = relay.owed response)
      (decoded : relay.Decoded response)
  | failed {rc : Finalized} (stage : relay.stage = .finalized rc) (early : rc ≠ .done)
      (premature : rc = .badGateway → relay.error = true) (begins : relay.delivered <+: relay.owed response)
      (decoded : relay.delivered = [] ∨ relay.Decoded response)

section

variable {response : Response} {relay : Relay}

theorem owed_sent (sent : relay.sendHeader = .sent) : relay.owed response = response.body := by
  simp [owed, sent]

theorem Relaying.begins (relaying : relay.Relaying response) : relay.delivered <+: relay.owed response :=
  ⟨_, relaying.whole.trans (owed_sent relaying.sent).symm⟩

theorem Relaying.finalize (relaying : relay.Relaying response) {rc : Finalized} (early : rc ≠ .done)
    (premature : rc = .badGateway → relay.error = true) : (relay.finalize rc).Follows response :=
  .failed rfl early premature relaying.begins (Or.inr relaying.decoded)

theorem Busy.unfailed (busy : relay.Busy) (error : relay.error = false) : relay.Unfailed := by
  refine ⟨fun rc finalized => ?_, error⟩
  simp [Busy, finalized] at busy

theorem awaitRecv_busy (relay : Relay) : relay.awaitRecv.Busy := by
  simp only [Busy, awaitRecv]
  split <;> simp

theorem processRequest_busy (relay : Relay) (doWrite : Bool) : (relay.processRequest doWrite).Busy := by
  rw [processRequest]
  split
  · exact Or.inl rfl
  · exact awaitRecv_busy relay

theorem Relaying.awaitRecv (relaying : relay.Relaying response) : relay.awaitRecv.Follows response :=
  .body (awaitRecv_busy relay)
    ⟨relaying.whole, relaying.within, relaying.room, relaying.missing, relaying.closed, relaying.decoded, relaying.sent⟩

theorem Relaying.processRequest (relaying : relay.Relaying response) (doWrite : Bool) :
    (relay.processRequest doWrite).Follows response := by
  rw [Relay.processRequest]
  split
  · exact .body (Or.inl rfl)
      ⟨relaying.whole, relaying.within, relaying.room, relaying.missing, relaying.closed, relaying.decoded, relaying.sent⟩
  · exact relaying.awaitRecv

theorem unsent_finalize {rc : Finalized} (unsent : relay.delivered = []) (early : rc ≠ .done)
    (mature : rc ≠ .badGateway) : (relay.finalize rc).Follows response := by
  refine .failed rfl early (fun premature => absurd premature mature) ?_ (Or.inl unsent)
  rw [finalize, unsent]
  exact List.nil_prefix

/-- The filter chains the bytes that `recv` has stored behind the chain. -/
theorem inputFilter_follows {count : Nat} {freeBuf : Bool} (small : response.body.length < 4294967296)
    (whole : relay.delivered ++ (relay.memory.ranges relay.chain ++
      (relay.memory.window relay.body.last count ++ relay.unread)) = response.body)
    (within : Within relay.body.last relay.chain) (room : relay.body.last + count ≤ relay.bufferSize)
    (missing : relay.body.length = count + relay.unread.length) (closed : relay.eof = true → relay.unread = [])
    (decoded : relay.Decoded response) (sent : relay.sendHeader = .sent) :
    (relay.inputFilter count freeBuf).Follows response := by
  cases freeBuf with
  | false => exact .failed rfl (by simp) (by simp) ⟨_, whole.trans (owed_sent sent).symm⟩ (Or.inr decoded)
  | true =>
      have bound := congrArg List.length whole
      simp only [List.length_append, Memory.window_length] at bound
      have filtered : relay.inputFilter count true = { relay with
          body := { relay.body with
            outBufs := relay.body.outBufs ++ [(relay.body.last, relay.body.last + count)]
            last := relay.body.last + count
            length := relay.unread.length }
          stage := .write } := by
        have counted : (if relay.body.length = -1 then relay.body.length else int64 (relay.body.length - count)) =
            relay.unread.length := by
          rw [if_neg (by omega), missing]
          simp only [int64]
          omega
        simp only [inputFilter, Body.filter, if_true, counted]
      rw [filtered]
      refine .body (Or.inl rfl) ⟨?_, ?_, room, rfl, closed, decoded, sent⟩
      · rw [← whole]
        simp [chain, Memory.ranges_singleton, List.append_assoc]
      · have longer : Within (relay.body.last + count) [(relay.body.last, relay.body.last + count)] := by
          simp [Within]
        have all := (within.mono (Nat.le_add_right _ count)).append longer
        rwa [chain, List.append_assoc] at all

theorem output_chain (relay : Relay) (count : Nat) :
    (relay.output count).chain = dropTaken (takeFront relay.chain count) := List.append_nil _

theorem Relaying.output (relaying : relay.Relaying response) (count : Nat) :
    (relay.output count).Relaying response := by
  refine ⟨?_, ?_, relaying.room, relaying.missing, relaying.closed, relaying.decoded, relaying.sent⟩
  · have cut : (relay.memory.ranges relay.chain).take count ++
        relay.memory.ranges (dropTaken (takeFront relay.chain count)) = relay.memory.ranges relay.chain := by
      rw [Memory.ranges_dropTaken, Memory.ranges_takeFront, List.take_append_drop]
    rw [output_chain, ← relaying.whole, ← cut]
    simp only [Relay.output, List.append_assoc]
  · rw [output_chain]
    exact relaying.within.takeFront.dropTaken

theorem chain_drained {count : Nat} (drained : (relay.output count).busyBufs = []) :
    (relay.output count).chain = [] := by
  rw [chain, drained]
  rfl

theorem Relaying.write (relaying : relay.Relaying response) (count : Nat) :
    (relay.write count).Follows response := by
  have written := relaying.output count
  rw [Relay.write]
  split
  · rename_i drained
    have empty := chain_drained drained
    split
    · rename_i complete
      have nothing : (relay.output count).unread = [] := by
        rcases complete with zero | negative
        · have missing := written.missing
          rw [zero] at missing
          exact List.length_eq_zero_iff.mp (by simpa using missing.symm)
        · exact written.closed negative.1
      have all := written.whole
      rw [empty, nothing, Memory.ranges_nil, List.append_nil, List.append_nil] at all
      exact .done rfl (all.trans (owed_sent written.sent).symm) written.decoded
    · split
      · rename_i incomplete early
        refine written.finalize (by simp) fun _ => ?_
        rcases early with eof | error
        · have missing := written.missing
          rw [written.closed eof] at missing
          exact absurd (Or.inl missing) incomplete
        · exact error
      · apply Relaying.awaitRecv
        refine ⟨written.whole, ?_, Nat.zero_le _, written.missing, written.closed, written.decoded, written.sent⟩
        have none : Within 0 (relay.output count).chain := by
          rw [empty]
          exact within_nil
        exact none
  · exact written.awaitRecv

theorem Relaying.received (relaying : relay.Relaying response) (small : response.body.length < 4294967296)
    {count : Nat} (ready freeBuf : Bool) (positive : 0 < count) (available : count ≤ relay.unread.length)
    (fits : count ≤ relay.bufferSize - relay.body.last) :
    ((relay.receive count ready).inputFilter count freeBuf).Follows response := by
  have size : (relay.unread.take count).length = count := List.length_take_of_le available
  have stored : (relay.receive count ready).memory.window relay.body.last count = relay.unread.take count := by
    have self := Memory.window_store_self relay.memory relay.body.last (relay.unread.take count)
    rwa [size] at self
  have kept : (relay.receive count ready).memory.ranges relay.chain = relay.memory.ranges relay.chain :=
    Memory.ranges_store_frame relaying.within _
  refine inputFilter_follows small ?_ relaying.within ?_ ?_ ?_ relaying.decoded relaying.sent
  · have whole := relaying.whole
    rw [← List.take_append_drop count relay.unread, ← stored, ← kept] at whole
    exact whole
  · have room := relaying.room
    simp only [receive]
    omega
  · have missing := relaying.missing
    simp only [receive, List.length_drop]
    omega
  · intro eof
    have nothing := relaying.closed eof
    rw [nothing, List.length_nil] at available
    omega

/-- What `ngx_http_upstream_send_response` finds when the header is complete. -/
structure Answered (response : Response) (relay : Relay) : Prop where
  arrived : relay.memory.window 0 relay.body.last ++ relay.unread = response.bytes
  complete : response.headerSize ≤ relay.body.last
  room : relay.body.last ≤ relay.bufferSize
  pos : relay.upstream.pos = response.headerSize
  status : relay.upstream.statusN = 200
  length : relay.upstream.contentLengthN = response.body.length
  unsent : relay.busyBufs = [] ∧ relay.delivered = []
  clean : relay.eof = false ∧ relay.error = false
  decoded : relay.Decoded response

theorem Answered.behind (answered : relay.Answered response) :
    relay.memory.window response.headerSize (relay.body.last - response.headerSize) ++ relay.unread =
      response.body := by
  obtain ⟨more, split⟩ := Nat.exists_eq_add_of_le answered.complete
  have body : response.bytes.drop response.headerSize = response.body :=
    List.drop_left' (by simp [Response.headerSize])
  rw [← body, ← answered.arrived, split, Memory.window_add, List.append_assoc, List.drop_left' (by simp),
    Nat.zero_add, Nat.add_sub_cancel_left]

theorem Answered.filterInit (answered : relay.Answered response) :
    Body.filterInit relay.upstream = ⟨response.body.length, response.body.length, response.headerSize, [], 0⟩ := by
  have status : relay.upstream.statusN ≠ 404 := by
    rw [answered.status]
    decide
  rw [Body.filterInit, if_pos status, answered.length, answered.pos]

theorem Answered.sendBody (answered : relay.Answered response) (small : response.body.length < 4294967296)
    (sent : relay.sendHeader = .sent) (freeBuf : Bool) : (relay.sendBody freeBuf).Follows response := by
  have behind := answered.behind
  have room := answered.room
  have complete := answered.complete
  have sizes := congrArg List.length behind
  simp only [List.length_append, Memory.window_length] at sizes
  have open_end : relay.eof = true → relay.unread = [] := by simp [answered.clean.1]
  simp only [Relay.sendBody, answered.filterInit, answered.pos]
  split
  · refine inputFilter_follows small ?_ ?_ ?_ ?_ open_end answered.decoded sent
    · simpa only [chain, answered.unsent, List.append_nil, List.nil_append, Memory.ranges_nil] using behind
    · simp [chain, answered.unsent]
    · simp only
      omega
    · simp only
      omega
  · rename_i nothing
    have all : relay.unread = response.body := by
      have none : relay.body.last - response.headerSize = 0 := by omega
      rwa [none, Memory.window_zero, List.nil_append] at behind
    have relaying : ({ relay with body := ⟨response.body.length, response.body.length, 0, [], 0⟩ } : Relay).Relaying
        response := by
      refine ⟨?_, ?_, Nat.zero_le _, ?_, open_end, answered.decoded, sent⟩
      · simpa only [chain, answered.unsent, List.append_nil, List.nil_append, Memory.ranges_nil] using all
      · simp [chain, answered.unsent]
      · rw [all]
    split
    · exact relaying.processRequest false
    · exact .body (Or.inr (Or.inr rfl))
        ⟨relaying.whole, relaying.within, relaying.room, relaying.missing, relaying.closed, relaying.decoded, relaying.sent⟩

theorem Answered.sendResponse (answered : relay.Answered response) (small : response.body.length < 4294967296)
    (freeBuf : Bool) : (relay.sendResponse freeBuf).Follows response := by
  rw [Relay.sendResponse]
  split
  · exact unsent_finalize answered.unsent.2 (by simp) (by simp)
  · rename_i only
    refine .done rfl ?_ answered.decoded
    rw [owed, if_pos (by exact only)]
    exact answered.unsent.2
  · rename_i sent
    exact answered.sendBody small sent freeBuf

theorem sendBody_busy (relay : Relay) : (relay.sendBody true).Busy := by
  simp only [sendBody]
  split
  · exact Or.inl rfl
  · split
    · exact processRequest_busy _ _
    · exact Or.inr (Or.inr rfl)

theorem inputFilter_setup (relay : Relay) (count : Nat) (freeBuf : Bool) :
    (relay.inputFilter count freeBuf).setup = relay.setup := by
  rw [inputFilter]
  split <;> rfl

theorem processRequest_setup (relay : Relay) (doWrite : Bool) :
    (relay.processRequest doWrite).setup = relay.setup := by
  rw [processRequest]
  split <;> rfl

theorem sendResponse_setup (relay : Relay) (freeBuf : Bool) : (relay.sendResponse freeBuf).setup = relay.setup := by
  rw [sendResponse]
  split
  · rfl
  · rfl
  · simp only [sendBody]
    split
    · exact inputFilter_setup _ _ _
    · split
      · exact processRequest_setup _ _
      · rfl

theorem inputFilter_error (relay : Relay) (count : Nat) (freeBuf : Bool) :
    (relay.inputFilter count freeBuf).error = relay.error := by
  rw [inputFilter]
  split <;> rfl

theorem processRequest_error (relay : Relay) (doWrite : Bool) : (relay.processRequest doWrite).error = relay.error := by
  rw [processRequest]
  split <;> rfl

theorem sendResponse_error (relay : Relay) (freeBuf : Bool) : (relay.sendResponse freeBuf).error = relay.error := by
  rw [sendResponse]
  split
  · rfl
  · rfl
  · simp only [sendBody]
    split
    · exact inputFilter_error _ _ _
    · split
      · exact processRequest_error _ _
      · rfl

theorem sendResponse_unfailed (relay : Relay) (begun : relay.sendHeader ≠ .failed) (error : relay.error = false) :
    (relay.sendResponse true).Unfailed ∧ (relay.sendResponse true).stage ≠ .header := by
  have kept := (sendResponse_error relay true).trans error
  rw [sendResponse] at kept ⊢
  split
  · contradiction
  · exact ⟨⟨fun rc finalized => (RelayStage.finalized.inj finalized).symm, error⟩, by simp [finalize]⟩
  · rename_i sent
    have busy := sendBody_busy relay
    simp only [sent] at kept
    refine ⟨busy.unfailed kept, fun header => ?_⟩
    simp [Busy, header] at busy

/-- A call of `process_header` in the middle of the response either waits for more,
with the length known, or has the whole header. -/
theorem Awaiting.processHeader (awaiting : relay.Awaiting response) (surroundings : Surroundings)
    (memory : surroundings.listPush = true) (representable : response.Representable) {received tail : List UInt8}
    (split : received ++ tail = response.bytes)
    (uncut : relay.body.last = 0 → response.form.size ≤ received.length) :
    (∃ u, { relay.upstream with received := received }.processHeader surroundings = (u, .again) ∧
        received.length < response.headerSize ∧ u.Settled response) ∨
      (∃ u, { relay.upstream with received := received }.processHeader surroundings = (u, .ok) ∧
        response.headerSize ≤ received.length ∧ u.pos = response.headerSize ∧ u.statusN = 200 ∧
        u.contentLengthN = (response.contentLength : Int) ∧ u.contentType = response.contentType ∧
        u.setCookie = if response.cookie = [] then [] else [response.cookie]) := by
  obtain ⟨u, same, settled, holds⟩ : ∃ u : Upstream,
      { relay.upstream with received := received }.processHeader surroundings = u.processHeader surroundings ∧
        u.Settled response ∧ u.received = received := by
    rcases awaiting.begun with ⟨nothing, start, noCookie⟩ | settled
    · refine ⟨_, Upstream.processHeader_first surroundings (u := { relay.upstream with received := received })
        start split (uncut nothing), ⟨rfl, rfl, noCookie⟩, rfl⟩
    · exact ⟨{ relay.upstream with received := received }, rfl, ⟨settled.pos, settled.remaining, settled.setCookie⟩, rfl⟩
  rw [same]
  have joined : u.received ++ tail = response.bytes := by rw [holds, split]
  rcases settled.processHeader surroundings memory joined with ⟨short, again⟩ | ⟨enough, kept, ok, answered⟩
  · exact Or.inl ⟨u, again, holds ▸ short, settled⟩
  · have known := answered.mpr representable
    rw [Response.Answered, if_neg (by rw [kept]; omega)] at known
    obtain ⟨_, length, _, cookie, contentType, pos⟩ := known
    exact Or.inr ⟨_, Prod.ext rfl ok, holds ▸ enough, pos, (processHeader_announces ok).1, length, contentType, cookie⟩

@[simp] theorem receive_body (relay : Relay) (count : Nat) (ready : Bool) :
    (relay.receive count ready).body = relay.body := rfl

@[simp] theorem receive_upstream (relay : Relay) (count : Nat) (ready : Bool) :
    (relay.receive count ready).upstream = relay.upstream := rfl

/-- The header as far as it has come after another `recv`. -/
theorem Awaiting.arrived_receive (awaiting : relay.Awaiting response) {count : Nat} (ready : Bool)
    (available : count ≤ relay.unread.length) :
    (relay.receive count ready).memory.window 0 (relay.body.last + count) ++ relay.unread.drop count =
      response.bytes := by
  have size : (relay.unread.take count).length = count := List.length_take_of_le available
  have stored := Memory.window_store_append relay.memory 0 relay.body.last (relay.unread.take count)
  rw [Nat.zero_add, size] at stored
  rw [receive, stored, List.append_assoc, List.take_append_drop, awaiting.arrived]

/-- Whether the length of the header is known decides about the first `recv`. -/
def Uncut (response : Response) (relay : Relay) : RelayEvent → Prop
  | .received count _ _ => relay.stage = .header → relay.body.last = 0 → response.form.size ≤ count
  | _ => True

theorem Awaiting.received (awaiting : relay.Awaiting response) (surroundings : Surroundings)
    (memory : surroundings.listPush = true) (representable : response.Representable)
    (announced : response.contentLength = response.body.length) (stage : relay.stage = .header) {count : Nat}
    (ready freeBuf : Bool) (positive : 0 < count) (available : count ≤ relay.unread.length)
    (fits : count ≤ relay.bufferSize - relay.body.last)
    (uncut : relay.body.last = 0 → response.form.size ≤ count) :
    ((relay.receive count ready).processHeader surroundings count freeBuf).Follows response ∧
      (response.headerSize ≤ relay.bufferSize → relay.sendHeader ≠ .failed → freeBuf = true →
        ((relay.receive count ready).processHeader surroundings count freeBuf).Unfailed ∧
          (response.headerSize ≤ relay.body.last + count →
            ((relay.receive count ready).processHeader surroundings count freeBuf).stage ≠ .header)) := by
  have arrived := awaiting.arrived_receive ready available
  have room : relay.body.last + count ≤ relay.bufferSize := by omega
  have nothing : relay.busyBufs = [] ∧ relay.body.outBufs = [] := List.append_eq_nil_iff.mp awaiting.unsent.1
  have longer : relay.body.last = 0 → response.form.size ≤
      ((relay.receive count ready).memory.window 0 (relay.body.last + count)).length := by
    intro first
    rw [Memory.window_length, first, Nat.zero_add]
    exact uncut first
  rcases awaiting.processHeader surroundings memory representable arrived longer with
    ⟨u, again, short, settled⟩ | ⟨u, ok, enough, pos, status, length, contentType, cookie⟩
  · rw [Memory.window_length] at short
    have result : (relay.receive count ready).processHeader surroundings count freeBuf =
        let waiting := (relay.receive count ready).headerRead u (relay.body.last + count)
        if relay.body.last + count = relay.bufferSize then waiting.finalize .nextUpstream else waiting := by
      simp only [Relay.processHeader, receive_body, receive_upstream, again]
      rfl
    rw [result]
    dsimp only
    split
    · refine ⟨unsent_finalize awaiting.unsent.2 (by simp) (by simp), fun roomy => ?_⟩
      omega
    · refine ⟨.header stage ⟨arrived, short, Or.inr settled, awaiting.unsent, awaiting.clean⟩, fun _ _ _ => ?_⟩
      refine ⟨⟨fun rc finalized => ?_, awaiting.clean.2⟩, by omega⟩
      rw [headerRead, receive, stage] at finalized
      cases finalized
  · rw [Memory.window_length] at enough
    have result : (relay.receive count ready).processHeader surroundings count freeBuf =
        ((relay.receive count ready).headerRead u (relay.body.last + count)).sendResponse freeBuf := by
      simp only [Relay.processHeader, receive_body, receive_upstream, ok]
    rw [result]
    have answered : ((relay.receive count ready).headerRead u (relay.body.last + count)).Answered response :=
      ⟨arrived, enough, room, pos, status, by rw [← announced]; exact length, ⟨nothing.1, awaiting.unsent.2⟩,
        awaiting.clean, contentType, cookie⟩
    refine ⟨answered.sendResponse (announced ▸ representable.1) freeBuf, fun _ begun free => ?_⟩
    obtain ⟨unfailed, behind⟩ := sendResponse_unfailed
      ((relay.receive count ready).headerRead u (relay.body.last + count)) begun answered.clean.2
    exact free ▸ ⟨unfailed, fun _ => behind⟩

end

section

variable {response : Response} {relay next : Relay} {surroundings : Surroundings}

theorem processHeader_setup (surroundings : Surroundings) (relay : Relay) (count : Nat) (freeBuf : Bool) :
    (relay.processHeader surroundings count freeBuf).setup = relay.setup := by
  simp only [processHeader]
  split
  · split <;> rfl
  · rfl
  · exact sendResponse_setup _ _

theorem write_setup (relay : Relay) (count : Nat) : (relay.write count).setup = relay.setup := by
  simp only [write]
  split
  · split
    · rfl
    · split <;> rfl
  · rfl

theorem step_setup {event : RelayEvent} (taken : relay.step surroundings event = some next) :
    next.setup = relay.setup := by
  cases event with
  | received count ready freeBuf =>
      simp only [step, Option.ite_none_right_eq_some] at taken
      obtain ⟨_, taken⟩ := taken
      split at taken
      · cases taken
        exact processHeader_setup _ _ _ _
      · cases taken
        exact inputFilter_setup _ _ _
      · cases taken
  | again | failed | readTimedOut =>
      simp only [step] at taken
      split at taken
      all_goals cases taken
      all_goals rfl
  | closed =>
      simp only [step, Option.ite_none_right_eq_some] at taken
      obtain ⟨_, taken⟩ := taken
      split at taken
      all_goals cases taken
      all_goals rfl
  | wrote count =>
      obtain ⟨_, rfl⟩ := guarded_step taken
      exact write_setup relay count
  | writeFailed | writeTimedOut =>
      obtain ⟨_, rfl⟩ := guarded_step taken
      rfl
  | readable | writable =>
      obtain ⟨_, rfl⟩ := guarded_step taken
      exact processRequest_setup _ _

/-- What the body's part of a response needs from an event that is not about bytes. -/
theorem Relaying.event (relaying : relay.Relaying response) {ready eof error : Bool} {stage : RelayStage}
    (closed : eof = true → relay.unread = []) :
    ({ relay with ready := ready, eof := eof, error := error, stage := stage } : Relay).Relaying response :=
  ⟨relaying.whole, relaying.within, relaying.room, relaying.missing, closed, relaying.decoded, relaying.sent⟩

theorem Follows.awaiting (follows : relay.Follows response) (stage : relay.stage = .header) :
    relay.Awaiting response := by
  cases follows with
  | header _ awaiting => exact awaiting
  | body busy _ => simp [Busy, stage] at busy
  | done finalized => simp [stage] at finalized
  | failed finalized => simp [stage] at finalized

theorem Follows.relaying (follows : relay.Follows response) (busy : relay.Busy) : relay.Relaying response := by
  cases follows with
  | header stage => simp [Busy, stage] at busy
  | body _ relaying => exact relaying
  | done stage => simp [Busy, stage] at busy
  | failed stage => simp [Busy, stage] at busy

theorem step_follows (memory : surroundings.listPush = true) (representable : response.Representable)
    (announced : response.contentLength = response.body.length) {event : RelayEvent}
    (follows : relay.Follows response) (uncut : relay.Uncut response event)
    (taken : relay.step surroundings event = some next) : next.Follows response := by
  have small : response.body.length < 4294967296 := announced ▸ representable.1
  cases event with
  | received count ready freeBuf =>
      simp only [step, Option.ite_none_right_eq_some] at taken
      obtain ⟨⟨positive, available, fits⟩, taken⟩ := taken
      split at taken
      · rename_i stage
        cases taken
        exact ((follows.awaiting stage).received surroundings memory representable announced stage ready freeBuf positive
          available fits (uncut stage)).1
      · rename_i stage
        cases taken
        exact (follows.relaying (Or.inr (Or.inl stage))).received small ready freeBuf positive available fits
      · cases taken
  | again =>
      simp only [step] at taken
      split at taken
      · rename_i stage
        cases taken
        obtain ⟨arrived, incomplete, begun, unsent, clean⟩ := follows.awaiting stage
        exact .header stage ⟨arrived, incomplete, begun, unsent, clean⟩
      · rename_i stage
        cases taken
        have relaying := follows.relaying (Or.inr (Or.inl stage))
        exact .body (Or.inr (Or.inr rfl)) (relaying.event relaying.closed)
      · cases taken
  | closed =>
      simp only [step, Option.ite_none_right_eq_some] at taken
      obtain ⟨nothing, taken⟩ := taken
      split at taken
      · rename_i stage
        cases taken
        exact unsent_finalize (follows.awaiting stage).unsent.2 (by simp) (by simp)
      · rename_i stage
        cases taken
        exact .body (Or.inl rfl) ((follows.relaying (Or.inr (Or.inl stage))).event fun _ => nothing)
      · cases taken
  | failed =>
      simp only [step] at taken
      split at taken
      · rename_i stage
        cases taken
        exact unsent_finalize (follows.awaiting stage).unsent.2 (by simp) (by simp)
      · rename_i stage
        cases taken
        have relaying := follows.relaying (Or.inr (Or.inl stage))
        exact .body (Or.inl rfl) (relaying.event relaying.closed)
      · cases taken
  | wrote count =>
      obtain ⟨⟨stage, _⟩, rfl⟩ := guarded_step taken
      exact (follows.relaying (Or.inl stage)).write count
  | writeFailed =>
      obtain ⟨⟨stage, _⟩, rfl⟩ := guarded_step taken
      exact (follows.relaying (Or.inl stage)).finalize (by simp) (by simp)
  | readable =>
      obtain ⟨stage, rfl⟩ := guarded_step taken
      have relaying := follows.relaying (Or.inr (Or.inr stage))
      exact Relaying.processRequest (relaying.event relaying.closed) false
  | writable =>
      obtain ⟨stage, rfl⟩ := guarded_step taken
      exact (follows.relaying (Or.inr (Or.inr stage))).processRequest true
  | readTimedOut =>
      simp only [step] at taken
      split at taken
      · rename_i stage
        cases taken
        exact unsent_finalize (follows.awaiting stage).unsent.2 (by simp) (by simp)
      · rename_i stage
        cases taken
        exact (follows.relaying (Or.inr (Or.inr stage))).finalize (by simp) (by simp)
      · cases taken
  | writeTimedOut =>
      obtain ⟨stage, rfl⟩ := guarded_step taken
      exact (follows.relaying (Or.inr (Or.inr stage))).finalize (by simp) (by simp)

/-- What goes wrong outside the program's own logic. -/
def Mishap : RelayEvent → Prop
  | .received _ _ freeBuf => freeBuf = false
  | .failed | .writeFailed | .readTimedOut | .writeTimedOut => True
  | .again | .closed | .wrote _ | .readable | .writable => False

theorem write_rc {count : Nat} {rc : Finalized} (stage : (relay.write count).stage = .finalized rc) :
    rc = .done ∨ rc = .badGateway := by
  simp only [Relay.write, Relay.awaitRecv] at stage
  split at stage
  · split at stage
    · exact Or.inl (RelayStage.finalized.inj stage).symm
    · split at stage
      · exact Or.inr (RelayStage.finalized.inj stage).symm
      · simp only at stage
        split at stage <;> cases stage
  · simp only at stage
    split at stage <;> cases stage

theorem write_error (relay : Relay) (count : Nat) : (relay.write count).error = relay.error := by
  simp only [write]
  split
  · split
    · rfl
    · split <;> rfl
  · rfl

theorem Relaying.write_unfailed (relaying : relay.Relaying response) (unfailed : relay.Unfailed) (count : Nat) :
    (relay.write count).Unfailed := by
  have error := (write_error relay count).trans unfailed.error
  refine ⟨fun rc stage => ?_, error⟩
  rcases write_rc stage with done | gateway
  · exact done
  · subst gateway
    cases relaying.write count with
    | header header => simp [header] at stage
    | body busy => simp [Busy, stage] at busy
    | done finalized => simp [finalized] at stage
    | failed finalized _ premature =>
        rw [finalized] at stage
        rw [premature (RelayStage.finalized.inj stage)] at error
        cases error

/-- A header that fits the buffer is not given up, and neither is a body. -/
theorem step_unfailed (memory : surroundings.listPush = true) (representable : response.Representable)
    (announced : response.contentLength = response.body.length) (room : response.headerSize ≤ relay.bufferSize)
    (begun : relay.sendHeader ≠ .failed) {event : RelayEvent} (follows : relay.Follows response)
    (unfailed : relay.Unfailed) (uncut : relay.Uncut response event) (spared : ¬ Mishap event)
    (taken : relay.step surroundings event = some next) : next.Unfailed := by
  have error := unfailed.error
  cases event with
  | received count ready freeBuf =>
      have free : freeBuf = true := by simpa [Mishap] using spared
      simp only [step, Option.ite_none_right_eq_some] at taken
      obtain ⟨⟨positive, available, fits⟩, taken⟩ := taken
      split at taken
      · rename_i stage
        cases taken
        exact (((follows.awaiting stage).received surroundings memory representable announced stage ready freeBuf positive
          available fits (uncut stage)).2 room begun free).1
      · cases taken
        subst free
        exact Busy.unfailed (Or.inl rfl) error
      · cases taken
  | again =>
      simp only [step] at taken
      split at taken
      · rename_i stage
        cases taken
        exact ⟨unfailed.stage, error⟩
      · cases taken
        exact Busy.unfailed (Or.inr (Or.inr rfl)) error
      · cases taken
  | closed =>
      simp only [step, Option.ite_none_right_eq_some] at taken
      obtain ⟨nothing, taken⟩ := taken
      split at taken
      · rename_i stage
        -- The header is not complete, so there is more to come.
        have awaiting := follows.awaiting stage
        have sizes := congrArg List.length awaiting.arrived
        have incomplete := awaiting.incomplete
        simp only [nothing, List.append_nil, Memory.window_length, Response.bytes, List.length_append,
          UintForm.encode_length] at sizes
        simp only [Response.headerSize] at incomplete
        omega
      · cases taken
        exact Busy.unfailed (Or.inl rfl) error
      · cases taken
  | wrote count =>
      obtain ⟨⟨stage, _⟩, rfl⟩ := guarded_step taken
      exact (follows.relaying (Or.inl stage)).write_unfailed unfailed count
  | readable | writable =>
      obtain ⟨_, rfl⟩ := guarded_step taken
      exact Busy.unfailed (processRequest_busy _ _) ((processRequest_error _ _).trans error)
  | failed | writeFailed | readTimedOut | writeTimedOut => exact absurd trivial spared

end

end Relay

end Webapp.Nginx

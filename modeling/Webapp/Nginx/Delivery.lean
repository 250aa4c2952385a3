import Webapp.Nginx.Relay

namespace Webapp.Nginx

open Webapp.Data Webapp.MsgPack

namespace Relay

/-! A request that has not ended can still deliver the whole response: the loop of
`ngx_http_upstream_process_non_buffered_request` has no state in which it waits for
what cannot come.
-/

section

variable {response : Response} {relay next : Relay} {surroundings : Surroundings}

/-- Some continuation gets all to the client that is owed to it. -/
def Completes (surroundings : Surroundings) (response : Response) (relay : Relay) : Prop :=
  ∃ events last, run (step surroundings) relay events = some last ∧ last.stage = .finalized .done ∧
    last.delivered = relay.owed response

theorem owed_eq (same : next.setup = relay.setup) : next.owed response = relay.owed response := by
  rw [owed, owed, show next.sendHeader = relay.sendHeader from congrArg Prod.snd same]

theorem Completes.before (completes : next.Completes surroundings response) {event : RelayEvent}
    (taken : relay.step surroundings event = some next) : relay.Completes surroundings response := by
  obtain ⟨events, last, ran, done, all⟩ := completes
  refine ⟨event :: events, last, by rw [run, taken, Option.bind_some, ran], done, ?_⟩
  rw [all, owed_eq (step_setup taken)]

/-- With an empty chain the rest of the body can only be read, and is. -/
theorem Relaying.reads (relaying : relay.Relaying response) (small : response.body.length < 4294967296)
    (stage : relay.stage = .recv ∨ relay.stage = .idle) (room : relay.body.last < relay.bufferSize)
    (more : 0 < relay.unread.length)
    (later : ∀ next : Relay, next.Relaying response → next.stage = .write → next.error = relay.error →
      next.bufferSize = relay.bufferSize → next.unread.length < relay.unread.length →
      next.Completes surroundings response) : relay.Completes surroundings response := by
  have receiving : ∀ relay' : Relay, relay'.Relaying response → relay'.stage = .recv → relay'.error = relay.error →
      relay'.bufferSize = relay.bufferSize → relay'.body.last = relay.body.last →
      relay'.unread = relay.unread → relay'.Completes surroundings response := by
    intro relay' relaying' stage error size last unread
    have taken : relay'.step surroundings (.received 1 true true) =
        some ((relay'.receive 1 true).inputFilter 1 true) := by
      simp only [step, stage]
      rw [if_pos ⟨Nat.one_pos, by rw [unread]; omega, by rw [size, last]; omega⟩]
    have follows := relaying'.received small true true Nat.one_pos (by rw [unread]; omega)
      (by rw [size, last]; omega)
    refine (later _ (follows.relaying (Or.inl rfl)) rfl error size ?_).before taken
    have shorter : ((relay'.receive 1 true).inputFilter 1 true).unread = relay'.unread.drop 1 := rfl
    rw [shorter, List.length_drop, unread]
    omega
  rcases stage with recv | idle
  · exact receiving relay relaying recv rfl rfl rfl rfl
  · have missing := relaying.missing
    have moved : ({ relay with ready := true } : Relay).processRequest false =
        { relay with ready := true, stage := .recv } := by
      rw [Relay.processRequest, if_neg (by simp; omega), Relay.awaitRecv, if_pos ⟨room, rfl⟩]
    have woken : relay.step surroundings .readable = some { relay with ready := true, stage := .recv } := by
      rw [step, if_pos idle, moved]
    exact (receiving _ (relaying.event relaying.closed) rfl rfl rfl rfl rfl).before woken

theorem Relaying.completes_writing (relaying : relay.Relaying response) (small : response.body.length < 4294967296)
    (stage : relay.stage = .write) (unfailed : relay.error = false) (room : 0 < relay.bufferSize) :
    relay.Completes surroundings response := by
  induction size : relay.unread.length using Nat.strong_induction_on generalizing relay with
  | _ unread ih =>
      let count := (relay.memory.ranges relay.chain).length
      have taken : relay.step surroundings (.wrote count) = some (relay.write count) :=
        if_pos ⟨stage, Nat.le_refl _⟩
      have written := relaying.output count
      have drained : (relay.output count).busyBufs = [] := by
        refine dropTaken_eq_nil relay.memory relaying.within.takeFront ?_
        rw [Memory.ranges_takeFront, List.drop_length]
      have missing : (relay.output count).body.length = relay.unread.length := written.missing
      by_cases complete : relay.unread = []
      · have finished : relay.write count = (relay.output count).finalize .done := by
          simp only [Relay.write, drained, if_true]
          rw [if_pos (Or.inl (by rw [missing, complete]; rfl))]
        have all := written.whole
        rw [chain_drained drained, show (relay.output count).unread = [] from complete, Memory.ranges_nil,
          List.append_nil, List.append_nil] at all
        refine ⟨[.wrote count], _, by rw [run, taken]; rfl, by rw [finished]; rfl, ?_⟩
        rw [finished, owed_sent relaying.sent]
        exact all
      · have more : 0 < relay.unread.length := List.length_pos_iff.mpr complete
        have unclosed : (relay.output count).eof = false := by
          cases eof : (relay.output count).eof with
          | false => rfl
          | true => exact absurd (written.closed eof) complete
        have onward : relay.write count =
            ({ relay.output count with body := { (relay.output count).body with last := 0 } } : Relay).awaitRecv := by
          simp only [Relay.write, drained, if_true, unclosed, show (relay.output count).error = false from unfailed]
          rw [if_neg (by omega), if_neg (by simp)]
        have follows := relaying.write count
        rw [onward] at follows taken
        have continues := follows.relaying (awaitRecv_busy _)
        refine (continues.reads small ?_ room more ?_).before taken
        · simp only [Relay.awaitRecv]
          split <;> simp
        · intro next relayingNext writing error size' shorter
          exact ih _ (size ▸ shorter) relayingNext writing (error.trans unfailed) (by rw [size']; exact room) rfl

theorem Relaying.completes (relaying : relay.Relaying response) (small : response.body.length < 4294967296)
    (busy : relay.Busy) (unfailed : relay.error = false) (room : 0 < relay.bufferSize) :
    relay.Completes surroundings response := by
  have idle : ∀ relay : Relay, relay.Relaying response → relay.stage = .idle → relay.error = false →
      0 < relay.bufferSize → relay.Completes surroundings response := by
    intro relay relaying stage unfailed room
    have woken : relay.step surroundings .writable = some { relay with stage := .write } := by
      simp [step, stage, Relay.processRequest]
    exact (Relaying.completes_writing (relaying.event relaying.closed) small rfl unfailed room).before woken
  rcases busy with write | recv | waiting
  · exact relaying.completes_writing small write unfailed room
  · have again : relay.step surroundings .again = some { relay with ready := false, stage := .idle } := by
      simp [step, recv]
    exact (idle _ (relaying.event relaying.closed) rfl unfailed room).before again
  · exact idle relay relaying waiting unfailed room

/-- Behind the header a request that has not failed is done or delivers the body. -/
theorem Follows.completes (follows : relay.Follows response) (small : response.body.length < 4294967296)
    (behind : relay.stage ≠ .header) (unfailed : relay.Unfailed) (room : 0 < relay.bufferSize) :
    relay.Completes surroundings response := by
  cases follows with
  | header stage => exact absurd stage behind
  | body busy relaying => exact relaying.completes small busy unfailed.error room
  | done stage all => exact ⟨[], relay, rfl, stage, all⟩
  | failed stage early => exact absurd (unfailed.stage _ stage) early

/-- The rest of the header can be read at once if there is room for it. -/
theorem Awaiting.completes (awaiting : relay.Awaiting response) (memory : surroundings.listPush = true)
    (representable : response.Representable) (announced : response.contentLength = response.body.length)
    (stage : relay.stage = .header) (room : response.headerSize ≤ relay.bufferSize)
    (begun : relay.sendHeader ≠ .failed) : relay.Completes surroundings response := by
  have small : response.body.length < 4294967296 := announced ▸ representable.1
  have sizes := congrArg List.length awaiting.arrived
  have incomplete := awaiting.incomplete
  have nonempty := response.header_pos
  have header : response.headerSize = response.form.size + response.header.length := rfl
  simp only [List.length_append, Memory.window_length, Response.bytes, UintForm.encode_length] at sizes
  let count := response.headerSize - relay.body.last
  have available : count ≤ relay.unread.length := by omega
  have fits : count ≤ relay.bufferSize - relay.body.last := by omega
  have uncut : relay.body.last = 0 → response.form.size ≤ count := by omega
  have taken : relay.step surroundings (.received count true true) =
      some ((relay.receive count true).processHeader surroundings count true) := by
    simp only [step, stage]
    rw [if_pos ⟨by omega, available, fits⟩]
  obtain ⟨follows, answered⟩ := awaiting.received surroundings memory representable announced stage true true
    (by omega) available fits uncut
  obtain ⟨unfailed, behind⟩ := answered room begun rfl
  refine (follows.completes small (behind (by omega)) unfailed ?_).before taken
  have size : (Relay.processHeader surroundings (relay.receive count true) count true).bufferSize = relay.bufferSize :=
    congrArg Prod.fst (processHeader_setup surroundings (relay.receive count true) count true)
  omega

theorem reached_follows {events : List RelayEvent} (memory : surroundings.listPush = true)
    (representable : response.Representable) (announced : response.contentLength = response.body.length)
    (follows : relay.Follows response) (uncut : Along (step surroundings) (Uncut response) relay events)
    (ends : run (step surroundings) relay events = some next) : next.Follows response ∧ next.setup = relay.setup := by
  have kept : next.setup = relay.setup :=
    @run_preserves _ _ (step surroundings) (fun other => other.setup = relay.setup) _ next events rfl
      (fun same taken => (step_setup taken).trans same) ends
  exact ⟨run_invariant follows (fun follows uncut taken => step_follows memory representable announced follows uncut taken)
    uncut ends, kept⟩

/-- Without a mishap a request does not fail. -/
theorem reached_unfailed {events : List RelayEvent} (memory : surroundings.listPush = true)
    (representable : response.Representable) (announced : response.contentLength = response.body.length)
    (room : response.headerSize ≤ relay.bufferSize) (begun : relay.sendHeader ≠ .failed)
    (follows : relay.Follows response) (unfailed : relay.Unfailed)
    (spared : Along (step surroundings) (fun relay event => relay.Uncut response event ∧ ¬ Mishap event) relay events)
    (ends : run (step surroundings) relay events = some next) : next.Unfailed := by
  have holds : next.Follows response ∧ next.Unfailed ∧ next.setup = relay.setup :=
    @run_invariant _ _ (step surroundings) (fun relay event => relay.Uncut response event ∧ ¬ Mishap event)
      (fun other => other.Follows response ∧ other.Unfailed ∧ other.setup = relay.setup) relay next events
      ⟨follows, unfailed, rfl⟩
      (by
        intro state event after holds allowed taken
        obtain ⟨follows, unfailed, same⟩ := holds
        have size : state.bufferSize = relay.bufferSize := congrArg Prod.fst same
        have wanted : state.sendHeader = relay.sendHeader := congrArg Prod.snd same
        exact ⟨step_follows memory representable announced follows allowed.1 taken,
          step_unfailed memory representable announced (size ▸ room) (wanted ▸ begun) follows unfailed allowed.1 allowed.2
            taken, (step_setup taken).trans same⟩)
      spared ends
  exact holds.2.1

end

theorem noCache_encodes : Encodes (packUint64 0) (.positiveInteger 0) := packUint64_encodes (by decide)

theorem noText_encodes : Encodes (packRaw 0 ++ packRawBody []) (.raw []) := packRaw_encodes [] (by decide)

def fiveLetters : Response where
  form := .fixnum
  contentLength := 5
  cache := 0
  cookie := []
  contentType := []
  contentLengthBytes := packUint64 5
  cacheBytes := packUint64 0
  cookieBytes := packRaw 0 ++ packRawBody []
  contentTypeBytes := packRaw 0 ++ packRawBody []
  body := [0x41, 0x42, 0x43, 0x44, 0x45]
  contentLength_encoded := packUint64_encodes (by decide)
  cache_encoded := noCache_encodes
  cookie_encoded := noText_encodes
  contentType_encoded := noText_encodes
  bounded := by decide
  fits := by decide

/-- In a buffer of eight bytes: three letters fill it behind the header, the client
takes one and then two, and the fourth is read to the start of the buffer. -/
def slowClient : List RelayEvent :=
  [.received 2 true true, .again, .received 4 true true, .wrote 0, .received 2 true true, .wrote 1, .writable,
    .wrote 2, .received 1 false true, .wrote 0]

instance (response : Response) (relay : Relay) (event : RelayEvent) : Decidable (relay.Uncut response event) :=
  match event with
  | .received count _ _ =>
      inferInstanceAs (Decidable (relay.stage = .header → relay.body.last = 0 → response.form.size ≤ count))
  | .again | .closed | .failed | .wrote _ | .writeFailed | .readable | .writable | .readTimedOut | .writeTimedOut =>
      .isTrue trivial

example : (run (step ⟨[], true⟩) (start 8 .only (fun _ => 0) fiveLetters.bytes) [.received 6 true true]).map
    (fun relay => (relay.stage, relay.delivered)) = some (.finalized .done, []) := by decide

end Relay

end Webapp.Nginx

import Webapp.Data.Runs
import Webapp.Data.Tagged

namespace Webapp.Workers

open Webapp.Data

/-! `Socket_Write` copies its argument and starts an `async_write` of the copy, which
sends it in pieces: each piece is an operation in the queue of the descriptor, and
when it has been performed the `write_op` starts the next one or calls
`write_handler`, which deletes the copy.  The script issues writes while the thread
of the service performs operations and runs completions.
-/

/-- A `write_op`: the number of the call, the copy of its argument, and
`total_transferred_`. -/
structure WriteOp where
  call : Nat
  bytes : List UInt8
  total : Nat
deriving DecidableEq, Repr

/-- An operation that was performed, in the queue of the service. -/
structure Performed where
  op : WriteOp
  error : Bool
  transferred : Nat
deriving DecidableEq, Repr

/-- What `send` does on the non-blocking descriptor. -/
inductive Attempt where
  | wouldBlock
  | sent (count : Nat)
  | failed
deriving DecidableEq, Repr

/-- `written` are the arguments of all calls, `finished` the calls whose
`write_handler` has run and whether it got an error, and `wire` what was sent, with
the calls it belongs to.  `destroyed` is whether the `LuaSocket` was deleted, and
`fault` whether it was used after that. -/
structure Writer where
  opened : Bool
  queue : List WriteOp
  performed : List Performed
  waiting : Int
  written : List (List UInt8)
  finished : List (Nat × Bool)
  wire : List (Nat × UInt8)
  destroyed : Bool
  fault : Bool
deriving DecidableEq, Repr

inductive WriterEvent where
  | write (bytes : List UInt8) (attempt : Attempt)
  /-- `perform_io` on the first operation of the queue. -/
  | perform (attempt : Attempt)
  | complete (index : Nat) (attempt : Attempt)
  | abort
  | destroy
deriving DecidableEq, Repr

/-- `default_max_transfer_size` -/
def maxTransferSize : Nat := 65536

def WriteOp.piece (op : WriteOp) : List UInt8 := (op.bytes.drop op.total).take maxTransferSize

namespace Writer

def connected : Writer := ⟨true, [], [], 0, [], [], [], false, false⟩

def post (writer : Writer) (op : WriteOp) (error : Bool) (transferred : Nat) : Writer :=
  { writer with performed := writer.performed ++ [⟨op, error, transferred⟩] }

def send (writer : Writer) (op : WriteOp) (count : Nat) : Option Writer :=
  if 0 < count ∧ count ≤ op.piece.length then
    some ({ writer with wire := writer.wire ++ tagged op.call (op.piece.take count) }.post op false count)
  else none

/-- `reactive_socket_service_base::start_op` and `epoll_reactor::start_op`: on a closed
socket the operation fails, an empty buffer completes at once, and with no operation
before it the piece is tried. -/
def startOp (writer : Writer) (op : WriteOp) (attempt : Attempt) : Option Writer :=
  if writer.opened = false then some (writer.post op true 0)
  else if op.piece = [] then some (writer.post op false 0)
  else if writer.queue = [] then
    match attempt with
    | .wouldBlock => some { writer with queue := [op] }
    | .sent count => writer.send op count
    | .failed => some (writer.post op true 0)
  else some { writer with queue := writer.queue ++ [op] }

def startWrite (writer : Writer) (bytes : List UInt8) (attempt : Attempt) : Option Writer :=
  { writer with waiting := writer.waiting + 1, written := writer.written ++ [bytes] }.startOp
    ⟨writer.written.length, bytes, 0⟩ attempt

/-- `socket.waiting--; delete buf;` -/
def writeHandler (writer : Writer) (call : Nat) (error : Bool) : Writer :=
  { writer with
    waiting := writer.waiting - 1
    finished := writer.finished ++ [(call, error)]
    fault := writer.fault || writer.destroyed }

/-- `write_op::operator()` with the result of the operation it has started. -/
def complete (writer : Writer) (done : Performed) (attempt : Attempt) : Option Writer :=
  let op := { done.op with total := done.op.total + done.transferred }
  if (done.error = false ∧ done.transferred = 0) ∨ done.error = true ∨ op.total = op.bytes.length then
    some (writer.writeHandler op.call done.error)
  else { writer with fault := writer.fault || writer.destroyed }.startOp op attempt

/-- `Socket::abort` -/
def abort (writer : Writer) : Writer :=
  { writer with
    opened := false
    queue := []
    performed := writer.performed ++ writer.queue.map fun op => ⟨op, true, 0⟩ }

/-- `Socket_Destroy` -/
def destroy (writer : Writer) : Writer := { writer.abort with destroyed := true }

def step (writer : Writer) : WriterEvent → Option Writer
  | .write bytes attempt => if writer.destroyed then none else writer.startWrite bytes attempt
  | .perform attempt =>
      match writer.queue, attempt with
      | [], _ => none
      | _ :: _, .wouldBlock => some writer
      | op :: later, .sent count => { writer with queue := later }.send op count
      | op :: later, .failed => some ({ writer with queue := later }.post op true 0)
  | .complete index attempt =>
      match writer.performed[index]? with
      | some done => { writer with performed := writer.performed.eraseIdx index }.complete done attempt
      | none => none
  | .abort => if writer.destroyed then none else some writer.abort
  | .destroy => if writer.destroyed then none else some writer.destroy

/-- The operations under way, with how many bytes of each were sent. -/
def outstanding (writer : Writer) : List (WriteOp × Nat) :=
  writer.queue.map (fun op => (op, op.total)) ++
    writer.performed.map fun done => (done.op, done.op.total + done.transferred)

def Progress (written : List (List UInt8)) (wire : List (Nat × UInt8)) (entry : WriteOp × Nat) : Prop :=
  written[entry.1.call]? = some entry.1.bytes ∧ entry.2 ≤ entry.1.bytes.length ∧
    ofTag entry.1.call wire = entry.1.bytes.take entry.2

/-- Every call is either under way, once, or its handler has run, once.  An operation
that the running step has taken out of its list, and not put back yet, is `held`. -/
structure Accounts (writer : Writer) (held : List (WriteOp × Nat)) : Prop where
  calls : ((writer.outstanding ++ held).map (fun entry => entry.1.call) ++ writer.finished.map Prod.fst).Perm
    (List.range writer.written.length)
  waiting : writer.waiting = (writer.outstanding ++ held).length
  progress : ∀ entry ∈ writer.outstanding ++ held, Progress writer.written writer.wire entry
  unsent : ∀ op ∈ writer.queue, op.total < op.bytes.length
  ended : ∀ done ∈ writer.performed, done.error = false → done.transferred = 0 → done.op.total = done.op.bytes.length
  settled : ∀ entry ∈ writer.finished, ∃ bytes, writer.written[entry.1]? = some bytes ∧
    ofTag entry.1 writer.wire <+: bytes ∧ (entry.2 = false → ofTag entry.1 writer.wire = bytes)
  tags : ∀ entry ∈ writer.wire, entry.1 < writer.written.length

section

variable {writer next : Writer} {held : List (WriteOp × Nat)} {op : WriteOp}

theorem Accounts.connected : Accounts connected [] := by
  refine ⟨List.Perm.refl _, rfl, ?_, ?_, ?_, ?_, ?_⟩ <;> simp [Writer.connected, outstanding]

/-- Moving operations between the lists changes nothing else. -/
theorem Accounts.moved {after : List (WriteOp × Nat)} {queue : List WriteOp} {performed : List Performed}
    (accounts : writer.Accounts held)
    (same : ({ writer with queue := queue, performed := performed }.outstanding ++ after).Perm
      (writer.outstanding ++ held))
    (unsent : ∀ op ∈ queue, op.total < op.bytes.length)
    (ended : ∀ done ∈ performed, done.error = false → done.transferred = 0 → done.op.total = done.op.bytes.length) :
    ({ writer with queue := queue, performed := performed } : Writer).Accounts after := by
  refine ⟨?_, ?_, ?_, unsent, ended, accounts.settled, accounts.tags⟩
  · exact ((same.map _).append_right _).trans accounts.calls
  · rw [same.length_eq]
    exact accounts.waiting
  · intro entry member
    exact accounts.progress entry (same.mem_iff.mp member)

theorem Accounts.held_progress (accounts : writer.Accounts [(op, op.total)]) :
    Progress writer.written writer.wire (op, op.total) :=
  accounts.progress _ (by simp)

theorem Accounts.post (accounts : writer.Accounts [(op, op.total)]) {error : Bool}
    (ended : error = false → op.total = op.bytes.length) : (writer.post op error 0).Accounts [] := by
  refine accounts.moved ?_ accounts.unsent ?_
  · simp [outstanding]
  · intro done member
    rcases List.mem_append.mp member with before | last
    · exact accounts.ended done before
    · rw [List.mem_singleton.mp last]
      exact fun clean _ => ended clean

theorem Accounts.enqueue (accounts : writer.Accounts [(op, op.total)]) (unsent : op.total < op.bytes.length) :
    ({ writer with queue := writer.queue ++ [op] } : Writer).Accounts [] := by
  refine accounts.moved ?_ ?_ accounts.ended
  · simp only [outstanding, List.map_append, List.map_singleton, List.append_nil, List.append_assoc]
    exact List.Perm.append_left _ List.perm_append_comm
  · intro other member
    rcases List.mem_append.mp member with before | last
    · exact accounts.unsent other before
    · rw [List.mem_singleton.mp last]
      exact unsent

theorem Accounts.other_call (accounts : writer.Accounts [(op, op.total)]) :
    (∀ entry ∈ writer.outstanding, entry.1.call ≠ op.call) ∧ ∀ entry ∈ writer.finished, entry.1 ≠ op.call := by
  have different := accounts.calls.nodup_iff.mpr List.nodup_range
  simp only [List.map_append, List.map_singleton, List.append_assoc, List.singleton_append] at different
  have once := (List.nodup_middle.mp different)
  rw [List.nodup_cons, List.mem_append, not_or] at once
  obtain ⟨⟨before, after⟩, _⟩ := once
  constructor
  · intro entry member same
    exact before (List.mem_map.mpr ⟨entry, member, same⟩)
  · intro entry member same
    exact after (List.mem_map.mpr ⟨entry, member, same⟩)

theorem WriteOp.take_piece {count : Nat} (enough : count ≤ op.piece.length) :
    op.bytes.take op.total ++ op.piece.take count = op.bytes.take (op.total + count) := by
  simp only [WriteOp.piece, List.length_take] at enough
  rw [WriteOp.piece, List.take_take, Nat.min_eq_left (Nat.le_trans enough (Nat.min_le_left _ _)), List.take_add]

theorem Accounts.send (accounts : writer.Accounts [(op, op.total)]) {count : Nat}
    (taken : writer.send op count = some next) : next.Accounts [] := by
  obtain ⟨⟨positive, enough⟩, rfl⟩ := guarded_step taken
  obtain ⟨otherOps, otherFinished⟩ := accounts.other_call
  obtain ⟨known, within, sent⟩ := accounts.held_progress
  have size : op.piece.length ≤ op.bytes.length - op.total := by simp [WriteOp.piece]
  have unchanged : ∀ call ≠ op.call, ofTag call (writer.wire ++ tagged op.call (op.piece.take count)) =
      ofTag call writer.wire := by
    intro call different
    rw [ofTag_append, ofTag_tagged_other different.symm, List.append_nil]
  have moved : ({ writer with wire := writer.wire ++ tagged op.call (op.piece.take count) }.post op false
      count).outstanding = writer.outstanding ++ [(op, op.total + count)] := by
    simp [outstanding, Writer.post]
  refine ⟨?_, ?_, ?_, accounts.unsent, ?_, ?_, ?_⟩
  · have calls := accounts.calls
    rw [List.map_append] at calls
    rw [moved, List.append_nil, List.map_append]
    exact calls
  · have waiting := accounts.waiting
    rw [List.length_append] at waiting
    rw [moved, List.append_nil, List.length_append]
    exact waiting
  · intro entry member
    rw [moved, List.append_nil] at member
    rcases List.mem_append.mp member with before | last
    · obtain ⟨knownEntry, withinEntry, sentEntry⟩ := accounts.progress entry (List.mem_append_left _ before)
      exact ⟨knownEntry, withinEntry, (unchanged _ (otherOps entry before)).trans sentEntry⟩
    · rw [List.mem_singleton.mp last]
      refine ⟨known, ?_, ?_⟩
      · simp only at within ⊢
        omega
      · exact (ofTag_append _ _).trans (by rw [sent, ofTag_tagged, WriteOp.take_piece enough])
  · intro done member
    rcases List.mem_append.mp member with before | last
    · exact accounts.ended done before
    · rw [List.mem_singleton.mp last]
      intro _ none
      exact absurd none (by simp only; omega)
  · intro entry member
    have same : ofTag entry.1 (writer.wire ++ tagged op.call (op.piece.take count)) = ofTag entry.1 writer.wire :=
      unchanged _ (otherFinished entry member)
    simp only [Writer.post, same]
    exact accounts.settled entry member
  · intro entry member
    rcases List.mem_append.mp member with before | last
    · exact accounts.tags entry before
    · rw [mem_tagged last]
      exact (List.getElem?_eq_some_iff.mp known).1

theorem Accounts.startOp (accounts : writer.Accounts [(op, op.total)]) {attempt : Attempt}
    (taken : writer.startOp op attempt = some next) : next.Accounts [] := by
  have within : op.total ≤ op.bytes.length := accounts.held_progress.2.1
  simp only [Writer.startOp] at taken
  split at taken
  · cases taken
    exact accounts.post (by simp)
  · split at taken
    · rename_i empty
      cases taken
      have size := congrArg List.length empty
      simp only [WriteOp.piece, List.length_take, List.length_drop, List.length_nil, maxTransferSize] at size
      exact accounts.post fun _ => by omega
    · rename_i nonempty
      have unsent : op.total < op.bytes.length := by
        have positive := List.length_pos_iff.mpr nonempty
        simp only [WriteOp.piece, List.length_take, List.length_drop] at positive
        omega
      split at taken
      · rename_i empty
        cases attempt with
        | wouldBlock =>
            cases taken
            have queued := accounts.enqueue unsent
            rwa [empty, List.nil_append] at queued
        | sent count => exact accounts.send taken
        | failed =>
            cases taken
            exact accounts.post (by simp)
      · cases taken
        exact accounts.enqueue unsent

theorem Accounts.startWrite (accounts : writer.Accounts []) {bytes : List UInt8} {attempt : Attempt}
    (taken : writer.startWrite bytes attempt = some next) : next.Accounts [] := by
  have earlier {call : Nat} {found : List UInt8} (known : writer.written[call]? = some found) :
      (writer.written ++ [bytes])[call]? = some found := by
    rw [List.getElem?_append_left (List.getElem?_eq_some_iff.mp known).1, known]
  have fresh : ofTag writer.written.length writer.wire = [] :=
    ofTag_absent fun entry member => Nat.ne_of_lt (accounts.tags entry member)
  have started : ({ writer with
      waiting := writer.waiting + 1
      written := writer.written ++ [bytes] } : Writer).Accounts [(⟨writer.written.length, bytes, 0⟩, 0)] := by
    refine ⟨?_, ?_, ?_, accounts.unsent, accounts.ended, ?_, ?_⟩
    · have calls := accounts.calls
      rw [List.append_nil] at calls
      have longer := List.Perm.append_right [writer.written.length] calls
      rw [← List.range_succ, List.append_assoc] at longer
      simp only [List.length_append, List.length_singleton, List.map_append, List.map_singleton, List.append_assoc]
      exact (List.Perm.append_left _ List.perm_append_comm).trans longer
    · have waiting := accounts.waiting
      simp only [List.append_nil] at waiting
      simp only [List.length_append, List.length_singleton, waiting, Nat.cast_add, Nat.cast_one]
      rfl
    · intro entry member
      rcases List.mem_append.mp member with before | new
      · obtain ⟨known, within, sent⟩ := accounts.progress entry (List.mem_append_left _ before)
        exact ⟨earlier known, within, sent⟩
      · rw [List.mem_singleton.mp new]
        exact ⟨by simp, Nat.zero_le _, by simpa using fresh⟩
    · intro entry member
      obtain ⟨found, known, begins, all⟩ := accounts.settled entry member
      exact ⟨found, earlier known, begins, all⟩
    · intro entry member
      have small := accounts.tags entry member
      simp only [List.length_append, List.length_singleton]
      exact Nat.lt_succ_of_lt small
  exact started.startOp taken

theorem Accounts.writeHandler {entry : WriteOp × Nat} (accounts : writer.Accounts [entry]) {error : Bool}
    (whole : error = false → entry.2 = entry.1.bytes.length) : (writer.writeHandler entry.1.call error).Accounts [] := by
  obtain ⟨known, within, sent⟩ := accounts.progress entry (by simp)
  refine ⟨?_, ?_, ?_, accounts.unsent, accounts.ended, ?_, accounts.tags⟩
  · have calls := accounts.calls
    simp only [List.map_append, List.map_singleton, List.append_assoc] at calls
    simp only [Writer.writeHandler, List.append_nil, List.map_append, List.map_singleton]
    exact (List.Perm.append_left _ List.perm_append_comm).trans calls
  · have waiting := accounts.waiting
    simp only [List.length_append, List.length_singleton, Nat.cast_add, Nat.cast_one] at waiting
    simp only [Writer.writeHandler, List.append_nil, waiting, add_sub_cancel_right]
    rfl
  · intro other member
    rw [List.append_nil] at member
    exact accounts.progress other (List.mem_append_left _ member)
  · intro other member
    rcases List.mem_append.mp member with before | last
    · exact accounts.settled other before
    · rw [List.mem_singleton.mp last]
      refine ⟨entry.1.bytes, known, ?_, fun clean => ?_⟩
      · exact sent ▸ List.take_prefix _ _
      · exact sent.trans (by rw [whole clean, List.take_length])

theorem Accounts.complete (accounts : writer.Accounts []) {index : Nat} {done : Performed} {attempt : Attempt}
    (found : writer.performed[index]? = some done)
    (taken : ({ writer with performed := writer.performed.eraseIdx index } : Writer).complete done attempt =
      some next) : next.Accounts [] := by
  obtain ⟨inside, here⟩ := List.getElem?_eq_some_iff.mp found
  have split : (done :: writer.performed.eraseIdx index).Perm writer.performed :=
    here ▸ List.getElem_cons_eraseIdx_perm inside
  have ended := accounts.ended done (List.mem_of_getElem? found)
  have taken_out : ({ writer with performed := writer.performed.eraseIdx index } : Writer).Accounts
      [(done.op, done.op.total + done.transferred)] := by
    refine accounts.moved ?_ accounts.unsent ?_
    · have lists := split.map fun done => (done.op, done.op.total + done.transferred)
      simp only [outstanding, List.append_nil, List.append_assoc]
      exact List.Perm.append_left _ ((List.perm_append_singleton _ _).trans lists)
    · intro other member
      exact accounts.ended other (split.mem_iff.mp (List.mem_cons_of_mem _ member))
  simp only [Writer.complete] at taken
  split at taken
  · rename_i finishes
    cases taken
    refine taken_out.writeHandler fun clean => ?_
    rcases finishes with nothing | failed | all
    · simp only
      rw [nothing.2, Nat.add_zero]
      exact ended clean nothing.2
    · rw [clean] at failed
      cases failed
    · exact all
  · refine Accounts.startOp ?_ taken
    obtain ⟨calls, waiting, progress, unsent, ended, settled, tags⟩ := taken_out
    refine ⟨?_, ?_, ?_, unsent, ended, settled, tags⟩
    · rw [List.map_append] at calls ⊢
      exact calls
    · rw [List.length_append] at waiting ⊢
      exact waiting
    · intro entry member
      rcases List.mem_append.mp member with before | last
      · exact progress entry (List.mem_append_left _ before)
      · rw [List.mem_singleton.mp last]
        have held := progress (done.op, done.op.total + done.transferred) (by simp)
        exact held

theorem Accounts.abort (accounts : writer.Accounts []) : writer.abort.Accounts [] := by
  have moved : ({ writer with
      queue := []
      performed := writer.performed ++ writer.queue.map fun op => ⟨op, true, 0⟩ } : Writer).Accounts [] := by
    refine accounts.moved ?_ (by simp) ?_
    · simp only [outstanding, List.append_nil, List.map_nil, List.nil_append, List.map_append, List.map_map]
      exact List.perm_append_comm
    · intro done member
      rcases List.mem_append.mp member with before | cancelled
      · exact accounts.ended done before
      · obtain ⟨op, _, rfl⟩ := List.mem_map.mp cancelled
        simp
  exact ⟨moved.calls, moved.waiting, moved.progress, moved.unsent, moved.ended, moved.settled, moved.tags⟩

theorem Accounts.unqueue (accounts : writer.Accounts []) {later : List WriteOp} (queued : writer.queue = op :: later) :
    ({ writer with queue := later } : Writer).Accounts [(op, op.total)] := by
  refine accounts.moved ?_ ?_ accounts.ended
  · simp only [outstanding, queued, List.append_nil, List.map_cons, List.cons_append]
    exact List.perm_append_singleton _ _
  · intro other member
    exact accounts.unsent other (queued ▸ List.mem_cons_of_mem _ member)

theorem Accounts.step (accounts : writer.Accounts []) {event : WriterEvent} (taken : writer.step event = some next) :
    next.Accounts [] := by
  cases event with
  | write bytes attempt =>
      simp only [Writer.step, Option.ite_none_left_eq_some] at taken
      exact accounts.startWrite taken.2
  | perform attempt =>
      simp only [Writer.step] at taken
      split at taken
      · cases taken
      · cases taken
        exact accounts
      · rename_i op later count queued
        exact (accounts.unqueue queued).send taken
      · rename_i op later queued
        cases taken
        exact (accounts.unqueue queued).post (by simp)
  | complete index attempt =>
      simp only [Writer.step] at taken
      split at taken
      · rename_i done found
        exact accounts.complete found taken
      · cases taken
  | abort =>
      simp only [Writer.step, Option.ite_none_left_eq_some, Option.some.injEq] at taken
      obtain ⟨_, rfl⟩ := taken
      exact accounts.abort
  | destroy =>
      simp only [Writer.step, Option.ite_none_left_eq_some, Option.some.injEq] at taken
      obtain ⟨_, rfl⟩ := taken
      obtain ⟨calls, waiting, progress, unsent, ended, settled, tags⟩ := accounts.abort
      exact ⟨calls, waiting, progress, unsent, ended, settled, tags⟩

theorem Accounts.length (accounts : writer.Accounts []) :
    writer.outstanding.length + writer.finished.length = writer.written.length := by
  simpa using accounts.calls.length_eq

theorem Accounts.distinct (accounts : writer.Accounts []) :
    (writer.outstanding.map (fun entry => entry.1.call)).Nodup ∧ (writer.finished.map Prod.fst).Nodup ∧
      ∀ entry ∈ writer.outstanding, entry.1.call ∉ writer.finished.map Prod.fst := by
  have different := accounts.calls.nodup_iff.mpr List.nodup_range
  rw [List.append_nil, List.nodup_append] at different
  obtain ⟨ops, finished, apart⟩ := different
  refine ⟨ops, finished, fun entry member again => ?_⟩
  exact apart _ (List.mem_map_of_mem member) _ again rfl

theorem Accounts.sent (accounts : writer.Accounts []) {call : Nat} {bytes : List UInt8}
    (known : writer.written[call]? = some bytes) : ofTag call writer.wire <+: bytes := by
  have listed : call ∈ List.range writer.written.length :=
    List.mem_range.mpr (List.getElem?_eq_some_iff.mp known).1
  rcases List.mem_append.mp (accounts.calls.mem_iff.mpr listed) with under | finished
  · obtain ⟨entry, member, rfl⟩ := List.mem_map.mp under
    obtain ⟨same, _, sent⟩ := accounts.progress entry member
    rw [known, Option.some.injEq] at same
    rw [sent, same]
    exact List.take_prefix _ _
  · obtain ⟨entry, member, rfl⟩ := List.mem_map.mp finished
    obtain ⟨found, same, begins, _⟩ := accounts.settled entry member
    rw [known, Option.some.injEq] at same
    exact same ▸ begins

theorem Accounts.sent_all (accounts : writer.Accounts []) {call : Nat} {bytes : List UInt8}
    (known : writer.written[call]? = some bytes) (finished : (call, false) ∈ writer.finished) :
    ofTag call writer.wire = bytes := by
  obtain ⟨found, same, _, all⟩ := accounts.settled _ finished
  rw [known, Option.some.injEq] at same
  rw [same, all rfl]

end

/-- How many operations and completions the calls under way can still need: one
operation and one completion for each byte, and a last completion. -/
def effort (writer : Writer) : Nat :=
  (writer.queue.map fun op => 2 * (op.bytes.length - op.total)).sum +
    (writer.performed.map fun done =>
      if done.error = true then 1 else 2 * (done.op.bytes.length - (done.op.total + done.transferred)) + 1).sum

def Works : WriterEvent → Bool
  | .perform attempt => attempt ≠ .wouldBlock
  | .complete _ _ => true
  | .write _ _ | .abort | .destroy => false

section

variable {writer next : Writer} {op : WriteOp}

theorem send_effort {count : Nat} (taken : writer.send op count = some next) :
    next.effort + 1 ≤ writer.effort + 2 * (op.bytes.length - op.total) ∧ next.written = writer.written := by
  obtain ⟨⟨positive, enough⟩, rfl⟩ := guarded_step taken
  refine ⟨?_, rfl⟩
  have size : op.piece.length ≤ op.bytes.length - op.total := by simp [WriteOp.piece]
  simp only [effort, post, List.map_append, List.map_singleton, List.sum_append, List.sum_singleton,
    Bool.false_eq_true, if_false]
  omega

theorem startOp_effort {attempt : Attempt} (taken : writer.startOp op attempt = some next) :
    next.effort ≤ writer.effort + max 1 (2 * (op.bytes.length - op.total)) ∧ next.written = writer.written := by
  have posted (error : Bool) : (writer.post op error 0).effort =
      writer.effort + if error = true then 1 else 2 * (op.bytes.length - op.total) + 1 := by
    simp [effort, post, Nat.add_assoc]
  have queued : ({ writer with queue := writer.queue ++ [op] } : Writer).effort =
      writer.effort + 2 * (op.bytes.length - op.total) := by
    simp only [effort, List.map_append, List.map_singleton, List.sum_append, List.sum_singleton]
    omega
  have failing := posted true
  rw [if_pos rfl] at failing
  simp only [startOp] at taken
  split at taken
  · cases taken
    exact ⟨by omega, rfl⟩
  · split at taken
    · rename_i empty
      cases taken
      have size := congrArg List.length empty
      simp only [WriteOp.piece, List.length_take, List.length_drop, List.length_nil, maxTransferSize] at size
      refine ⟨?_, rfl⟩
      rw [posted false, if_neg (by simp)]
      omega
    · split at taken
      · rename_i empty
        cases attempt with
        | wouldBlock =>
            cases taken
            rw [empty, List.nil_append] at queued
            exact ⟨by omega, rfl⟩
        | sent count =>
            obtain ⟨less, kept⟩ := send_effort taken
            exact ⟨by omega, kept⟩
        | failed =>
            cases taken
            exact ⟨by omega, rfl⟩
      · cases taken
        exact ⟨by omega, rfl⟩

theorem complete_effort (accounts : writer.Accounts []) {index : Nat} {done : Performed} {attempt : Attempt}
    (found : writer.performed[index]? = some done)
    (taken : ({ writer with performed := writer.performed.eraseIdx index } : Writer).complete done attempt =
      some next) : next.effort + 1 ≤ writer.effort ∧ next.written = writer.written := by
  obtain ⟨inside, here⟩ := List.getElem?_eq_some_iff.mp found
  have split : (done :: writer.performed.eraseIdx index).Perm writer.performed :=
    here ▸ List.getElem_cons_eraseIdx_perm inside
  have within : done.op.total + done.transferred ≤ done.op.bytes.length := by
    have member : (done.op, done.op.total + done.transferred) ∈ writer.outstanding ++ [] := by
      rw [List.append_nil]
      exact List.mem_append_right _ (List.mem_map_of_mem (List.mem_of_getElem? found))
    exact (accounts.progress _ member).2.1
  have removed : ({ writer with performed := writer.performed.eraseIdx index } : Writer).effort +
      (if done.error = true then 1 else 2 * (done.op.bytes.length - (done.op.total + done.transferred)) + 1) =
        writer.effort := by
    have sums := (split.map fun done => if done.error = true then 1
      else 2 * (done.op.bytes.length - (done.op.total + done.transferred)) + 1).sum_eq
    rw [List.map_cons, List.sum_cons] at sums
    simp only [effort]
    omega
  simp only [complete] at taken
  split at taken
  · cases taken
    refine ⟨?_, rfl⟩
    have same : (({ writer with performed := writer.performed.eraseIdx index } : Writer).writeHandler done.op.call
        done.error).effort = ({ writer with performed := writer.performed.eraseIdx index } : Writer).effort := rfl
    rw [same]
    split at removed <;> omega
  · rename_i unfinished
    obtain ⟨less, kept⟩ := startOp_effort taken
    refine ⟨?_, kept⟩
    have clean : done.error = false := by
      cases error : done.error with
      | false => rfl
      | true => exact absurd (Or.inr (Or.inl error)) unfinished
    have more : done.op.total + done.transferred ≠ done.op.bytes.length :=
      fun all => unfinished (Or.inr (Or.inr all))
    have same : ({ writer with
        performed := writer.performed.eraseIdx index
        fault := writer.fault || writer.destroyed } : Writer).effort =
          ({ writer with performed := writer.performed.eraseIdx index } : Writer).effort := rfl
    rw [same] at less
    rw [if_neg (by simp [clean])] at removed
    simp only at less
    omega

theorem abort_effort (accounts : writer.Accounts []) : writer.abort.effort ≤ writer.effort := by
  have cheaper : (writer.queue.map fun _ => 1).sum ≤
      (writer.queue.map fun op => 2 * (op.bytes.length - op.total)).sum := by
    apply List.sum_le_sum
    intro op member
    have unsent := accounts.unsent op member
    omega
  simp only [effort, abort, List.map_nil, List.sum_nil, List.map_append, List.sum_append, List.map_map,
    Function.comp_def, if_true]
  omega

def Budgeted (past : List WriterEvent) (writer : Writer) : Prop :=
  past.countP Works + writer.effort ≤ (writer.written.map fun bytes => 2 * bytes.length + 1).sum

theorem step_budgeted {past : List WriterEvent} {event : WriterEvent} (accounts : writer.Accounts [])
    (budgeted : Budgeted past writer) (taken : writer.step event = some next) : Budgeted (past ++ [event]) next := by
  rw [Budgeted, List.countP_append, List.countP_singleton]
  rw [Budgeted] at budgeted
  cases event with
  | write bytes attempt =>
      simp only [step, Option.ite_none_left_eq_some] at taken
      obtain ⟨less, kept⟩ := startOp_effort taken.2
      have same : ({ writer with waiting := writer.waiting + 1, written := writer.written ++ [bytes] } : Writer).effort =
          writer.effort := rfl
      rw [same] at less
      rw [kept]
      simp only [Works, Bool.false_eq_true, if_false, List.map_append, List.map_singleton, List.sum_append,
        List.sum_singleton]
      simp only at less
      omega
  | perform attempt =>
      simp only [step] at taken
      split at taken
      · cases taken
      · cases taken
        simpa [Works] using budgeted
      · rename_i op later count queued
        obtain ⟨less, kept⟩ := send_effort taken
        rw [kept]
        simp only [effort, queued, List.map_cons, List.sum_cons] at budgeted less ⊢
        split <;> omega
      · rename_i op later queued
        cases taken
        have unsent := accounts.unsent op (queued ▸ List.mem_cons_self)
        simp only [effort, queued, post, List.map_cons, List.sum_cons, List.map_append, List.sum_append, List.map_nil,
          List.sum_nil, if_true] at budgeted ⊢
        split <;> omega
  | complete index attempt =>
      simp only [step] at taken
      split at taken
      · rename_i done found
        obtain ⟨less, kept⟩ := complete_effort accounts found taken
        rw [kept]
        split <;> omega
      · cases taken
  | abort =>
      simp only [step, Option.ite_none_left_eq_some, Option.some.injEq] at taken
      obtain ⟨_, rfl⟩ := taken
      have less := abort_effort accounts
      have kept : writer.abort.written = writer.written := rfl
      simp only [Works, Bool.false_eq_true, if_false, kept]
      omega
  | destroy =>
      simp only [step, Option.ite_none_left_eq_some, Option.some.injEq] at taken
      obtain ⟨_, rfl⟩ := taken
      have less := abort_effort accounts
      have same : writer.destroy.effort = writer.abort.effort := rfl
      have kept : writer.destroy.written = writer.written := rfl
      simp only [Works, Bool.false_eq_true, if_false, same, kept]
      omega

end

/-- In every run each copy is deleted at most once, by the handler of its own call, and
no operation is left on it then; `waiting` is the number of copies that are not
deleted.  Of each copy a beginning is sent, in order, and all of it when the handler
gets no error.  The calls need no more operations and completions than their bytes
allow, and when none is left every copy is deleted. -/
theorem writes_accounted (events : List WriterEvent) (reached : Writer)
    (ends : run step connected events = some reached) :
    reached.waiting = reached.written.length - reached.finished.length ∧
      (reached.finished.map Prod.fst).Nodup ∧
      (∀ entry ∈ reached.outstanding, entry.1.call ∉ reached.finished.map Prod.fst) ∧
      (∀ call bytes, reached.written[call]? = some bytes → ofTag call reached.wire <+: bytes ∧
        ((call, false) ∈ reached.finished → ofTag call reached.wire = bytes)) ∧
      events.countP Works ≤ (reached.written.map fun bytes => 2 * bytes.length + 1).sum ∧
      (reached.queue = [] → reached.performed = [] → reached.waiting = 0 ∧
        (reached.finished.map Prod.fst).Perm (List.range reached.written.length)) := by
  have both : reached.Accounts [] ∧ Budgeted events reached := by
    refine run_history (P := fun past writer => writer.Accounts [] ∧ Budgeted past writer)
      ⟨Accounts.connected, Nat.zero_le _⟩ ?_ ends
    intro past writer event next _ holds taken
    exact ⟨holds.1.step taken, step_budgeted holds.1 holds.2 taken⟩
  obtain ⟨accounts, budgeted⟩ := both
  obtain ⟨_, once, apart⟩ := accounts.distinct
  have length := accounts.length
  have waiting := accounts.waiting
  rw [List.append_nil] at waiting
  refine ⟨by omega, once, apart, fun call bytes known => ⟨accounts.sent known, accounts.sent_all known⟩, ?_, ?_⟩
  · rw [Budgeted] at budgeted
    omega
  · intro unqueued uncompleted
    have none : reached.outstanding = [] := by simp [outstanding, unqueued, uncompleted]
    have calls := accounts.calls
    rw [none, List.append_nil, List.map_nil, List.nil_append] at calls
    exact ⟨by rw [waiting, none]; rfl, calls⟩

/-- A write of five bytes that goes out in three pieces, and another one that is cut
off by `Socket::abort`. -/
def abortedWrite : List WriterEvent :=
  [.write [1, 2, 3, 4, 5] (.sent 2), .complete 0 .wouldBlock, .perform (.sent 1), .write [6, 7, 8] (.sent 1),
    .complete 0 (.sent 2), .complete 1 .failed, .complete 0 (.sent 1), .abort, .complete 0 .failed, .complete 0 .failed]

theorem writes_accounted_aborted :
    ∃ reached, run step connected abortedWrite = some reached ∧ reached.waiting = 0 ∧
      (reached.finished.map Prod.fst).Perm [0, 1] ∧ ofTag 0 reached.wire = [1, 2, 3, 4, 5] := by
  have seen : (run step connected abortedWrite).map (fun writer => (writer.written, writer.finished, writer.queue,
      writer.performed)) = some ([[1, 2, 3, 4, 5], [6, 7, 8]], [(0, false), (1, true)], [], []) := by decide
  obtain ⟨reached, ends, facts⟩ := Option.map_eq_some_iff.mp seen
  obtain ⟨written, finished, queue, performed⟩ : reached.written = [[1, 2, 3, 4, 5], [6, 7, 8]] ∧
      reached.finished = [(0, false), (1, true)] ∧ reached.queue = [] ∧ reached.performed = [] := by simpa using facts
  obtain ⟨_, _, _, sent, _, quiet⟩ := writes_accounted abortedWrite reached ends
  obtain ⟨none, deleted⟩ := quiet queue performed
  rw [written] at deleted
  exact ⟨reached, ends, none, deleted, (sent 0 _ (by rw [written]; rfl)).2 (by simp [finished])⟩

end Writer

end Webapp.Workers

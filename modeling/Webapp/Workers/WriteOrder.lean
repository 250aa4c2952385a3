import Webapp.Workers.SocketWrite

namespace Webapp.Workers

open Webapp.Data

/-! Writes that overlap.  The next piece of a write goes to the end of the queue, behind
the writes that were started meanwhile.
-/

namespace Writer

section

variable {writer next : Writer} {op : WriteOp}

/-- What a step for one call can change: it may send more of that call's bytes, and
puts no other call under way. -/
structure Serves (writer next : Writer) (call : Nat) : Prop where
  wire : ∃ bytes, next.wire = writer.wire ++ tagged call bytes
  written : next.written = writer.written
  calls : ∀ entry ∈ next.outstanding, entry.1.call = call ∨ entry ∈ writer.outstanding

theorem post_serves (writer : Writer) (op : WriteOp) (error : Bool) (transferred : Nat) :
    writer.Serves (writer.post op error transferred) op.call := by
  refine ⟨⟨[], by simp [post, tagged]⟩, rfl, ?_⟩
  intro entry member
  simp only [outstanding, post, List.map_append, List.map_singleton, ← List.append_assoc] at member
  rcases List.mem_append.mp member with before | last
  · exact Or.inr before
  · exact Or.inl (by rw [List.mem_singleton.mp last])

theorem enqueue_serves (writer : Writer) (op : WriteOp) :
    writer.Serves { writer with queue := writer.queue ++ [op] } op.call := by
  refine ⟨⟨[], by simp [tagged]⟩, rfl, ?_⟩
  intro entry member
  simp only [outstanding, List.map_append, List.map_singleton, List.append_assoc] at member
  rcases List.mem_append.mp member with before | later
  · exact Or.inr (List.mem_append_left _ before)
  · rcases List.mem_append.mp later with new | after
    · exact Or.inl (by rw [List.mem_singleton.mp new])
    · exact Or.inr (List.mem_append_right _ after)

theorem send_serves {count : Nat} (taken : writer.send op count = some next) : writer.Serves next op.call := by
  obtain ⟨_, rfl⟩ := guarded_step taken
  obtain ⟨_, _, calls⟩ := post_serves
    { writer with wire := writer.wire ++ tagged op.call (op.piece.take count) } op false count
  exact ⟨⟨_, rfl⟩, rfl, calls⟩

theorem startOp_serves {attempt : Attempt} (taken : writer.startOp op attempt = some next) :
    writer.Serves next op.call := by
  simp only [startOp] at taken
  split at taken
  · cases taken
    exact post_serves _ _ _ _
  · split at taken
    · cases taken
      exact post_serves _ _ _ _
    · split at taken
      · rename_i empty
        cases attempt with
        | wouldBlock =>
            cases taken
            have queued := enqueue_serves writer op
            rwa [empty, List.nil_append] at queued
        | sent count => exact send_serves taken
        | failed =>
            cases taken
            exact post_serves _ _ _ _
      · cases taken
        exact enqueue_serves _ _

/-- Taking an operation out of its list first makes no difference. -/
theorem Serves.before {shorter : Writer} {call : Nat} (serves : shorter.Serves next call)
    (wire : shorter.wire = writer.wire) (written : shorter.written = writer.written)
    (fewer : ∀ entry ∈ shorter.outstanding, entry ∈ writer.outstanding) : writer.Serves next call := by
  obtain ⟨⟨bytes, more⟩, same, calls⟩ := serves
  exact ⟨⟨bytes, more.trans (by rw [wire])⟩, same.trans written, fun entry member =>
    (calls entry member).imp_right (fewer entry)⟩

theorem perform_serves {attempt : Attempt} (taken : writer.step (.perform attempt) = some next) :
    ∃ entry ∈ writer.outstanding, writer.Serves next entry.1.call := by
  simp only [step] at taken
  split at taken
  · cases taken
  · rename_i op later queued
    cases taken
    refine ⟨(op, op.total), ?_, ⟨[], by simp [tagged]⟩, rfl, fun entry member => Or.inr member⟩
    simp [outstanding, queued]
  · rename_i op later count queued
    refine ⟨(op, op.total), by simp [outstanding, queued], (send_serves taken).before rfl rfl ?_⟩
    intro entry member
    simp only [outstanding, queued, List.map_cons, List.cons_append] at member ⊢
    exact List.mem_cons_of_mem _ member
  · rename_i op later queued
    cases taken
    refine ⟨(op, op.total), by simp [outstanding, queued], (post_serves _ _ _ _).before rfl rfl ?_⟩
    intro entry member
    simp only [outstanding, queued, List.map_cons, List.cons_append] at member ⊢
    exact List.mem_cons_of_mem _ member

theorem complete_serves {index : Nat} {attempt : Attempt} (taken : writer.step (.complete index attempt) = some next) :
    ∃ entry ∈ writer.outstanding, writer.Serves next entry.1.call := by
  simp only [step] at taken
  split at taken
  · rename_i done found
    have fewer : ∀ entry ∈ ({ writer with performed := writer.performed.eraseIdx index } : Writer).outstanding,
        entry ∈ writer.outstanding := by
      intro entry member
      rcases List.mem_append.mp member with queued | rest
      · exact List.mem_append_left _ queued
      · exact List.mem_append_right _ (((List.eraseIdx_sublist _ _).map _).mem rest)
    refine ⟨(done.op, done.op.total + done.transferred), ?_, ?_⟩
    · exact List.mem_append_right _ (List.mem_map_of_mem (List.mem_of_getElem? found))
    · simp only [complete] at taken
      split at taken
      · cases taken
        exact ⟨⟨[], by simp [writeHandler, tagged]⟩, rfl, fun entry member => Or.inr (fewer entry member)⟩
      · exact (startOp_serves taken).before rfl rfl fewer
  · cases taken

theorem abort_outstanding (writer : Writer) : writer.abort.outstanding.Perm writer.outstanding := by
  simp only [outstanding, abort, List.map_nil, List.nil_append, List.map_append, List.map_map]
  exact List.perm_append_comm

end

/-- `Socket_Write` only when all earlier writes have ended. -/
def Alone (writer : Writer) : WriterEvent → Prop
  | .write _ _ => writer.waiting = 0
  | .perform _ | .complete _ _ | .abort | .destroy => True

instance (writer : Writer) (event : WriterEvent) : Decidable (writer.Alone event) :=
  match event with
  | .write _ _ => inferInstanceAs (Decidable (writer.waiting = 0))
  | .perform _ | .complete _ _ | .abort | .destroy => .isTrue trivial

structure InOrder (writer : Writer) : Prop where
  accounts : writer.Accounts []
  sorted : (writer.wire.map Prod.fst).Pairwise (· ≤ ·)
  last : ∀ entry ∈ writer.outstanding, entry.1.call + 1 = writer.written.length

section

variable {writer next : Writer}

theorem Serves.sorted {call : Nat} (serves : writer.Serves next call)
    (sorted : (writer.wire.map Prod.fst).Pairwise (· ≤ ·)) (below : ∀ entry ∈ writer.wire, entry.1 ≤ call) :
    (next.wire.map Prod.fst).Pairwise (· ≤ ·) := by
  obtain ⟨bytes, more⟩ := serves.wire
  rw [more, List.map_append, List.pairwise_append]
  have same : ∀ tag ∈ (tagged call bytes).map Prod.fst, tag = call := by
    intro tag member
    obtain ⟨entry, listed, rfl⟩ := List.mem_map.mp member
    exact mem_tagged listed
  refine ⟨sorted, List.pairwise_of_forall_mem_list fun first member second other => ?_, ?_⟩
  · rw [same first member, same second other]
  · intro first member second other
    obtain ⟨entry, listed, rfl⟩ := List.mem_map.mp member
    rw [same second other]
    exact below entry listed

theorem InOrder.serves (inOrder : writer.InOrder) {entry : WriteOp × Nat} (under : entry ∈ writer.outstanding)
    (serves : writer.Serves next entry.1.call) (accounts : next.Accounts []) : next.InOrder := by
  have current := inOrder.last entry under
  refine ⟨accounts, serves.sorted inOrder.sorted ?_, ?_⟩
  · intro other member
    have small := inOrder.accounts.tags other member
    omega
  · intro other member
    rw [serves.written]
    rcases serves.calls other member with same | before
    · rw [same, current]
    · exact inOrder.last other before

theorem InOrder.step {event : WriterEvent} (inOrder : writer.InOrder) (alone : writer.Alone event)
    (taken : writer.step event = some next) : next.InOrder := by
  have accounts := inOrder.accounts.step taken
  cases event with
  | write bytes attempt =>
      simp only [Writer.step, Option.ite_none_left_eq_some] at taken
      have none : writer.outstanding = [] := by
        have waiting := inOrder.accounts.waiting
        rw [show writer.waiting = 0 from alone, List.append_nil] at waiting
        exact List.length_eq_zero_iff.mp (by omega)
      have serves := startOp_serves taken.2
      refine ⟨accounts, serves.sorted inOrder.sorted ?_, ?_⟩
      · intro entry member
        exact Nat.le_of_lt (inOrder.accounts.tags entry member)
      · intro entry member
        rw [serves.written, List.length_append, List.length_singleton]
        rcases serves.calls entry member with same | before
        · rw [same]
        · have earlier : entry ∈ writer.outstanding := before
          rw [none] at earlier
          cases earlier
  | perform attempt =>
      obtain ⟨entry, under, serves⟩ := perform_serves taken
      exact inOrder.serves under serves accounts
  | complete index attempt =>
      obtain ⟨entry, under, serves⟩ := complete_serves taken
      exact inOrder.serves under serves accounts
  | abort =>
      simp only [Writer.step, Option.ite_none_left_eq_some, Option.some.injEq] at taken
      obtain ⟨_, rfl⟩ := taken
      exact ⟨accounts, inOrder.sorted, fun entry member =>
        inOrder.last entry ((abort_outstanding writer).mem_iff.mp member)⟩
  | destroy =>
      simp only [Writer.step, Option.ite_none_left_eq_some, Option.some.injEq] at taken
      obtain ⟨_, rfl⟩ := taken
      exact ⟨accounts, inOrder.sorted, fun entry member =>
        inOrder.last entry ((abort_outstanding writer).mem_iff.mp member)⟩

theorem InOrder.wire (inOrder : writer.InOrder) :
    writer.wire.map Prod.snd = (List.range writer.written.length).flatMap fun call => ofTag call writer.wire :=
  map_snd_of_sorted inOrder.sorted inOrder.accounts.tags

/-- The calls before the last one have ended. -/
theorem InOrder.earlier (inOrder : writer.InOrder) (clean : ∀ entry ∈ writer.finished, entry.2 = false) {call : Nat}
    {bytes : List UInt8} (known : writer.written[call]? = some bytes)
    (ended : call + 1 < writer.written.length ∨ writer.waiting = 0) : ofTag call writer.wire = bytes := by
  have listed : call ∈ List.range writer.written.length :=
    List.mem_range.mpr (List.getElem?_eq_some_iff.mp known).1
  rcases List.mem_append.mp (inOrder.accounts.calls.mem_iff.mpr listed) with under | finished
  · obtain ⟨entry, member, rfl⟩ := List.mem_map.mp under
    rw [List.append_nil] at member
    rcases ended with earlier | none
    · have last := inOrder.last entry member
      omega
    · have waiting := inOrder.accounts.waiting
      rw [none, List.append_nil] at waiting
      rw [List.length_eq_zero_iff.mp (by omega : writer.outstanding.length = 0)] at member
      cases member
  · obtain ⟨entry, member, rfl⟩ := List.mem_map.mp finished
    have settled : (entry.1, false) ∈ writer.finished := by
      rw [← clean entry member]
      exact member
    exact inOrder.accounts.sent_all known settled

theorem InOrder.beginnings (inOrder : writer.InOrder) :
    List.Forall₂ (fun sent bytes => sent <+: bytes)
      ((List.range writer.written.length).map fun call => ofTag call writer.wire) writer.written := by
  rw [List.forall₂_iff_get]
  refine ⟨by simp, fun call _ inside => ?_⟩
  have known : writer.written[call]? = some writer.written[call] := List.getElem?_eq_getElem inside
  simpa using inOrder.accounts.sent known

theorem InOrder.concatenates (inOrder : writer.InOrder) (clean : ∀ entry ∈ writer.finished, entry.2 = false) :
    writer.wire.map Prod.snd <+: writer.written.flatten := by
  rw [inOrder.wire]
  rcases List.eq_nil_or_concat writer.written with none | ⟨earlier, last, written⟩
  · simp [none]
  · have first : (List.range earlier.length).flatMap (fun call => ofTag call writer.wire) = earlier.flatten := by
      apply flatMap_range_eq_flatten
      intro call bytes known
      have inside := (List.getElem?_eq_some_iff.mp known).1
      refine inOrder.earlier clean ?_ (Or.inl ?_)
      · rw [written, List.concat_eq_append, List.getElem?_append_left inside, known]
      · simpa [written] using inside
    have begins : ofTag earlier.length writer.wire <+: last := inOrder.accounts.sent (by simp [written])
    rw [written, List.concat_eq_append, List.length_append, List.length_singleton, List.range_succ, List.flatMap_append,
      List.flatMap_singleton, first, List.flatten_append, List.flatten_singleton]
    exact (List.prefix_append_right_inj _).mpr begins

end

/-- Writes that do not overlap go out one after the other: of each a beginning, and of
all of them everything as long as there is no error and no write under way. -/
theorem writes_concatenate (events : List WriterEvent) (alone : Along step Alone connected events) (reached : Writer)
    (ends : run step connected events = some reached) :
    (∃ sent, reached.wire.map Prod.snd = sent.flatten ∧
        List.Forall₂ (fun sent bytes => sent <+: bytes) sent reached.written) ∧
      ((∀ entry ∈ reached.finished, entry.2 = false) →
        reached.wire.map Prod.snd <+: reached.written.flatten ∧
          (reached.waiting = 0 → reached.wire.map Prod.snd = reached.written.flatten)) := by
  have inOrder : reached.InOrder := by
    refine run_invariant ⟨Accounts.connected, .nil, ?_⟩ (fun inOrder alone taken => inOrder.step alone taken) alone ends
    simp [connected, outstanding]
  refine ⟨⟨_, ?_, inOrder.beginnings⟩, fun clean => ⟨inOrder.concatenates clean, fun quiet => ?_⟩⟩
  · rw [inOrder.wire, List.flatMap_def]
  · rw [inOrder.wire]
    exact flatMap_range_eq_flatten fun call bytes known => inOrder.earlier clean known (Or.inr quiet)

def oneByOne : List WriterEvent :=
  [.write [1, 2, 3] (.sent 2), .complete 0 .wouldBlock, .perform (.sent 1), .complete 0 .failed, .write [4] .wouldBlock,
    .perform (.sent 1), .complete 0 .failed]

theorem writes_concatenate_one_by_one :
    ∃ reached, run step connected oneByOne = some reached ∧ reached.wire.map Prod.snd = [1, 2, 3, 4] := by
  have seen : (run step connected oneByOne).map (fun writer => (writer.written, writer.finished, writer.waiting)) =
      some ([[1, 2, 3], [4]], [(0, false), (1, false)], 0) := by decide
  obtain ⟨reached, ends, facts⟩ := Option.map_eq_some_iff.mp seen
  obtain ⟨written, finished, waiting⟩ : reached.written = [[1, 2, 3], [4]] ∧
      reached.finished = [(0, false), (1, false)] ∧ reached.waiting = 0 := by simpa using facts
  have clean := (writes_concatenate oneByOne (by decide) reached ends).2 (by simp [finished])
  refine ⟨reached, ends, ?_⟩
  rw [clean.2 waiting, written]
  rfl

/-- A write that is started before the completion of a piece of an earlier one goes
between that piece and the next. -/
theorem overlapping_writes_mix (first second : List UInt8) (long : 2 ≤ first.length) (nonempty : second ≠ []) :
    ∃ reached, run step connected [.write first (.sent 1), .write second (.sent 1), .complete 0 (.sent 1)] = some reached ∧
      reached.wire = tagged 0 (first.take 1) ++ tagged 1 (second.take 1) ++ tagged 0 ((first.drop 1).take 1) ∧
      ¬ (reached.wire.map Prod.fst).Pairwise (· ≤ ·) := by
  cases first with
  | nil => simp at long
  | cons byte tail =>
      cases tail with
      | nil => simp at long
      | cons following tail =>
          obtain ⟨inserted, rest, rfl⟩ := List.exists_cons_of_ne_nil nonempty
          refine ⟨_, rfl, rfl, ?_⟩
          have tags : [0, 1, 0].Pairwise (· ≤ ·) → False := by decide
          exact tags

end Writer

end Webapp.Workers

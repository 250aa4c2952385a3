import Webapp.Workers.Queue

namespace Webapp.Workers.Traffic

open Webapp.Data

/-! What becomes of the consumer when a worker is shut down.  The flag is set
before the null pointer is enqueued, so that `enqueue` turns the null pointer
away and nobody is notified.
-/

variable {α : Type}

/-- A shutdown has returned and no step of any thread gets the consumer out of
its wait any more. -/
def Stuck (traffic : Traffic α) : Prop :=
  .returned none ∈ traffic.calls ∧
    ∀ moves later, run step traffic moves = some later →
      later.consumer.inWait = true ∧ later.shared.count = 0

/-- A shutdown comes when the consumer is not waiting, or when an element is
counted or on its way. -/
def Noticed (traffic : Traffic α) : Move α → Prop
  | .shutdown => traffic.shared.aborted = true ∨ traffic.consumer.inWait = false ∨
      0 < traffic.shared.count + traffic.calls.countP EnqueueCall.admitted
  | _ => True

instance Noticed.decidable (traffic : Traffic α) : (move : Move α) → Decidable (traffic.Noticed move)
  | .shutdown => inferInstanceAs (Decidable (traffic.shared.aborted = true ∨ traffic.consumer.inWait = false ∨
      0 < traffic.shared.count + traffic.calls.countP EnqueueCall.admitted))
  | .enqueue _ | .advance _ | .dequeue | .consume | .wake => isTrue trivial

structure Released (traffic : Traffic α) : Prop where
  null : ∀ call ∈ traffic.calls, call.item = none → traffic.shared.aborted = true
  expected : traffic.shared.aborted = true → traffic.consumer.inWait = true →
    0 < traffic.shared.count + traffic.calls.countP EnqueueCall.admitted

/-- The flag is set, the consumer waits and no call will count anything. -/
structure Lost (traffic : Traffic α) : Prop where
  aborted : traffic.shared.aborted = true
  waits : traffic.consumer.inWait = true
  nothing : traffic.shared.count = 0
  noCall : traffic.calls.countP EnqueueCall.admitted = 0

theorem countP_set_same {calls : List (EnqueueCall α)} {call : Nat} {before : EnqueueCall α}
    (found : calls[call]? = some before) (after : EnqueueCall α) (same : after.admitted = before.admitted) :
    (calls.set call after).countP EnqueueCall.admitted = calls.countP EnqueueCall.admitted := by
  have moved := countP_set found EnqueueCall.admitted after
  rw [same] at moved
  exact Nat.add_right_cancel moved

theorem countP_testing (calls : List (EnqueueCall α)) (item : Option α) :
    (calls ++ [EnqueueCall.testing item]).countP EnqueueCall.admitted = calls.countP EnqueueCall.admitted := by
  simp [EnqueueCall.admitted]

section

variable {traffic : Traffic α}

theorem Lost.step {next : Traffic α} {move : Move α} (lost : traffic.Lost)
    (taken : traffic.step move = some next) : next.Lost := by
  obtain ⟨aborted, waits, nothing, noCall⟩ := lost
  -- A call past its test would be counted among the admitted ones.
  have none {call : Nat} {other : EnqueueCall α} (found : traffic.calls[call]? = some other) :
      ¬ other.admitted = true := List.countP_eq_zero.mp noCall other (List.mem_of_getElem? found)
  cases step_took taken with
  | enqueue item => exact ⟨aborted, waits, nothing, (countP_testing _ _).trans noCall⟩
  | shutdown => exact ⟨rfl, waits, nothing, (countP_testing _ _).trans noCall⟩
  | refuse found _ => exact ⟨aborted, waits, nothing, (countP_set_same found (.returned _) rfl).trans noCall⟩
  | proceed found running => simp [aborted] at running
  | push found => exact absurd rfl (none found)
  | count found => exact absurd rfl (none found)
  | dequeue idle => simp [idle, Consumer.inWait] at waits
  | turnAway testing _ => simp [testing, Consumer.inWait] at waits
  | enter testing _ => simp [testing, Consumer.inWait] at waits
  | sleep _ _ => exact ⟨aborted, rfl, nothing, noCall⟩
  | pass _ some => exact absurd nothing some
  | pop popping => simp [popping, Consumer.inWait] at waits
  | wake _ => exact ⟨aborted, rfl, nothing, noCall⟩

theorem Lost.stuck (lost : traffic.Lost) (returned : .returned none ∈ traffic.calls) : traffic.Stuck := by
  refine ⟨returned, fun moves later reached => ?_⟩
  have still : later.Lost := run_preserves lost (fun lost taken => lost.step taken) reached
  exact ⟨still.waits, still.nothing⟩

theorem Released.null_set (released : traffic.Released) {call : Nat} {before after : EnqueueCall α}
    (found : traffic.calls[call]? = some before) (same : after.item = before.item) :
    ∀ other ∈ traffic.calls.set call after, other.item = none → traffic.shared.aborted = true := by
  refine forall_mem_set released.null found fun before => ?_
  rw [same]
  exact before

theorem Released.step {next : Traffic α} {move : Move α} (released : traffic.Released)
    (noticed : traffic.Noticed move) (taken : traffic.step move = some next) : next.Released := by
  have ⟨null, expected⟩ := released
  cases step_took taken with
  | enqueue item =>
      refine ⟨?_, ?_⟩
      · intro call member empty
        rcases List.mem_append.mp member with old | new
        · exact null call old empty
        · obtain rfl := List.mem_singleton.mp new
          contradiction
      · simpa only [countP_testing] using expected
  | shutdown =>
      refine ⟨fun _ _ _ => rfl, ?_⟩
      intro _ waits
      simp only [countP_testing]
      rcases noticed with aborted | busy | coming
      · exact expected aborted waits
      · simp [busy] at waits
      · exact coming
  | refuse found aborted =>
      refine ⟨released.null_set found rfl, ?_⟩
      simpa only [countP_set_same found (.returned _) rfl] using expected
  | proceed found running =>
      refine ⟨released.null_set found rfl, ?_⟩
      intro aborted
      simp [running] at aborted
  | push found =>
      refine ⟨released.null_set found rfl, ?_⟩
      simpa only [countP_set_same found (.counting _) rfl] using expected
  | count found =>
      refine ⟨released.null_set found rfl, ?_⟩
      intro _ _
      exact Nat.add_pos_left (Nat.succ_pos _) _
  | dequeue idle => exact ⟨null, fun _ waits => by contradiction⟩
  | turnAway testing _ => exact ⟨null, fun _ waits => by contradiction⟩
  | enter testing running => exact ⟨null, fun aborted => by simp [running] at aborted⟩
  | sleep waiting _ => exact ⟨null, fun aborted _ => expected aborted (by simp [waiting, Consumer.inWait])⟩
  | pass waiting _ => exact ⟨null, fun _ waits => by contradiction⟩
  | pop popping => exact ⟨null, fun _ waits => by contradiction⟩
  | wake asleep => exact ⟨null, fun aborted _ => expected aborted (by simp [asleep, Consumer.inWait])⟩

/-- The call that is on its way counts its element in two steps at most. -/
theorem Released.not_stuck (released : traffic.Released) : ¬ traffic.Stuck := by
  intro stuck
  obtain ⟨returned, forever⟩ := stuck
  have aborted := released.null _ returned rfl
  obtain ⟨waits, nothing⟩ := forever [] traffic rfl
  have coming := released.expected aborted waits
  rw [nothing, Nat.zero_add] at coming
  obtain ⟨call, member, admitted⟩ := List.countP_pos_iff.mp coming
  obtain ⟨index, found⟩ := List.getElem?_of_mem member
  cases call with
  | testing item => contradiction
  | returned item => contradiction
  | counting item =>
      have counted : ∃ later, run Traffic.step traffic [.advance index] = some later ∧ later.shared.count = 1 := by
        simp [run, Traffic.step, advance, found, nothing]
      obtain ⟨later, reached, one⟩ := counted
      simp [(forever _ later reached).2] at one
  | pushing item =>
      have again : (traffic.calls.set index (.counting item))[index]? = some (.counting item) :=
        List.getElem?_set_self (List.getElem?_eq_some_iff.mp found).1
      have counted : ∃ later, run Traffic.step traffic [.advance index, .advance index] = some later ∧
          later.shared.count = 1 := by
        simp [run, Traffic.step, advance, found, nothing, again]
      obtain ⟨later, reached, one⟩ := counted
      simp [(forever _ later reached).2] at one

end

theorem Released.start : (start : Traffic α).Released where
  null call member := by contradiction
  expected aborted := by contradiction

theorem shutdown_lost {traffic : Traffic α} (unnoticed : ¬ traffic.Noticed .shutdown) :
    ∃ stuck, run step traffic [.shutdown, .advance traffic.calls.length] = some stuck ∧ stuck.Stuck := by
  simp only [Noticed, not_or, Bool.not_eq_true, Bool.not_eq_false, Nat.pos_iff_ne_zero, not_not,
    Nat.add_eq_zero_iff] at unnoticed
  obtain ⟨_, waits, nothing, noCall⟩ := unnoticed
  have found : (traffic.calls ++ [EnqueueCall.testing none])[traffic.calls.length]? =
      some (EnqueueCall.testing (none : Option α)) := List.getElem?_concat_length
  refine ⟨_, by simp only [run, step, advance, found, Option.bind_some, if_true]; rfl, ?_⟩
  refine Lost.stuck ⟨rfl, waits, nothing, ?_⟩ ?_
  · exact (countP_set_same found (.returned none) rfl).trans ((countP_testing _ _).trans noCall)
  · exact List.mem_set (by simp) _

/-- A shutdown releases the consumer in every run in which it is noticed, and in
no other: one that is not noticed leaves the consumer asleep for good. -/
theorem shutdown_releases :
    (∀ moves, Along step Noticed start moves →
      Always step (fun traffic : Traffic α => ¬ traffic.Stuck) start moves) ∧
    ∀ traffic : Traffic α, ¬ traffic.Noticed .shutdown →
      ∃ moves stuck, run step traffic (.shutdown :: moves) = some stuck ∧ stuck.Stuck := by
  refine ⟨fun moves noticed => ?_, fun traffic unnoticed => ?_⟩
  · exact noticed.always Released.start Released.step Released.not_stuck
  · obtain ⟨stuck, reached, forever⟩ := shutdown_lost unnoticed
    exact ⟨_, stuck, reached, forever⟩

/-- The script shuts its worker down between two requests. -/
theorem shutdown_releases_between :
    Always step (fun traffic : Traffic Nat => ¬ traffic.Stuck) start [.shutdown, .advance 0, .dequeue, .consume] :=
  shutdown_releases.1 _ (by decide)

theorem shutdown_asleep_stuck :
    ∃ traffic : Traffic Nat, run step start [.dequeue, .consume, .consume, .shutdown, .advance 0] = some traffic ∧
      traffic.consumer = .asleep ∧ traffic.Stuck :=
  ⟨_, rfl, rfl, Lost.stuck ⟨rfl, rfl, rfl, rfl⟩ (by decide)⟩

end Webapp.Workers.Traffic

import Mathlib

namespace Webapp.Data

/-! Runs of a transition function.  A step is a partial function of the state
and an event; an event that is not enabled gives `none`.
-/

variable {σ ε : Type} {step : σ → ε → Option σ} {Allowed : σ → ε → Prop} {Good : σ → Prop}

def run (step : σ → ε → Option σ) : σ → List ε → Option σ
  | state, [] => some state
  | state, event :: events => (step state event).bind fun next => run step next events

theorem run_append (state : σ) (first second : List ε) :
    run step state (first ++ second) = (run step state first).bind fun middle => run step middle second := by
  induction first generalizing state with
  | nil => rfl
  | cons event first ih =>
      simp only [List.cons_append, run, Option.bind_assoc, ih]

/-- Events that can be taken wherever something holds, and that keep it, can be
taken one after the other. -/
theorem run_exists_within {Inv : σ → Prop} {events : List ε} {state : σ} (within : Inv state)
    (enabled : ∀ event ∈ events, ∀ state, Inv state → ∃ next, step state event = some next ∧ Inv next) :
    ∃ reached, run step state events = some reached ∧ Inv reached := by
  induction events generalizing state with
  | nil => exact ⟨state, rfl, within⟩
  | cons event events ih =>
      rw [List.forall_mem_cons] at enabled
      obtain ⟨next, taken, later⟩ := enabled.1 state within
      obtain ⟨reached, rest, last⟩ := ih later enabled.2
      exact ⟨reached, by rw [run, taken, Option.bind_some, rest], last⟩

theorem run_exists {events : List ε} (enabled : ∀ event ∈ events, ∀ state, ∃ next, step state event = some next)
    (state : σ) : ∃ reached, run step state events = some reached := by
  have always : ∀ event ∈ events, ∀ state, True → ∃ next, step state event = some next ∧ True := by
    intro event member state _
    obtain ⟨next, taken⟩ := enabled event member state
    exact ⟨next, taken, trivial⟩
  obtain ⟨reached, ends, _⟩ := run_exists_within trivial always
  exact ⟨reached, ends⟩

theorem elim_mono {Holds Follows : σ → Prop} {Stuck : Prop} {result : Option σ} (holds : result.elim Stuck Holds)
    (implied : ∀ state, Holds state → Follows state) : result.elim Stuck Follows := by
  cases result with
  | none => exact holds
  | some state => exact implied state holds

theorem elim_bind {Holds : σ → Prop} {Stuck : Prop} {result : Option σ} {next : σ → Option σ}
    (holds : result.elim Stuck fun state => (next state).elim Stuck Holds) : (result.bind next).elim Stuck Holds := by
  cases result with
  | none => exact holds
  | some state => exact holds

/-- What every step keeps holds at the end, unless a step has no result, which is
where `Stuck` has to be shown. -/
theorem run_elim {Holds : σ → Prop} {Stuck : Prop} {events : List ε}
    (each : ∀ event ∈ events, ∀ state, Holds state → (step state event).elim Stuck Holds)
    {state : σ} (holds : Holds state) : (run step state events).elim Stuck Holds := by
  induction events generalizing state with
  | nil => exact holds
  | cons event events ih =>
      rw [List.forall_mem_cons] at each
      rw [run]
      refine elim_bind (elim_mono (each.1 state holds) ?_)
      intro next holdsNext
      exact ih each.2 holdsNext

/-- Every step a run takes is an allowed one. -/
def Along (step : σ → ε → Option σ) (Allowed : σ → ε → Prop) : σ → List ε → Prop
  | _, [] => True
  | state, event :: events =>
      ∀ next ∈ step state event, Allowed state event ∧ Along step Allowed next events

/-- Every state a run passes through is a good one, the first included. -/
def Always (step : σ → ε → Option σ) (Good : σ → Prop) : σ → List ε → Prop
  | state, [] => Good state
  | state, event :: events =>
      Good state ∧ ∀ next ∈ step state event, Always step Good next events

instance Along.decidable [∀ state event, Decidable (Allowed state event)] (state : σ) :
    (events : List ε) → Decidable (Along step Allowed state events)
  | [] => isTrue trivial
  | event :: events =>
      have : ∀ next, Decidable (Along step Allowed next events) := fun next => decidable next events
      inferInstanceAs (Decidable (∀ next ∈ step state event, Allowed state event ∧
        Along step Allowed next events))

/-- Every event of a run is an allowed one, also the one that has no next state. -/
def Throughout (step : σ → ε → Option σ) (Allowed : σ → ε → Prop) : σ → List ε → Prop
  | _, [] => True
  | state, event :: events =>
      Allowed state event ∧ ∀ next ∈ step state event, Throughout step Allowed next events

theorem guarded_step {guard : Prop} [Decidable guard] {after next : σ}
    (taken : (if guard then some after else none) = some next) : guard ∧ next = after := by
  simp only [Option.ite_none_right_eq_some, Option.some.injEq] at taken
  exact ⟨taken.1, taken.2.symm⟩

theorem Always.first {state : σ} {events : List ε} (always : Always step Good state events) : Good state := by
  cases events with
  | nil => exact always
  | cons event events => exact always.1

theorem Always.last {state reached : σ} {events : List ε} (always : Always step Good state events)
    (ends : run step state events = some reached) : Good reached := by
  induction events generalizing state with
  | nil =>
      cases ends
      exact always
  | cons event events ih =>
      obtain ⟨next, taken, ends⟩ := Option.bind_eq_some_iff.mp ends
      exact ih (always.2 next taken) ends

theorem run_invariant {state reached : σ} {events : List ε} (holds : Good state)
    (preserves : ∀ {state event next}, Good state → Allowed state event →
      step state event = some next → Good next)
    (along : Along step Allowed state events) (ends : run step state events = some reached) :
    Good reached := by
  induction events generalizing state with
  | nil =>
      obtain rfl : state = reached := by simpa [run] using ends
      exact holds
  | cons event events ih =>
      simp only [run] at ends
      cases taken : step state event with
      | none => simp [taken] at ends
      | some next =>
          obtain ⟨allowed, rest⟩ := along next taken
          exact ih (preserves holds allowed taken) rest (by simpa [taken] using ends)

theorem Along.of_events {Each : ε → Prop} {state : σ} {events : List ε} (each : ∀ event ∈ events, Each event) :
    Along step (fun _ event => Each event) state events := by
  induction events generalizing state with
  | nil => trivial
  | cons event events ih =>
      exact fun next _ => ⟨each event List.mem_cons_self, ih fun later member => each later (List.mem_cons_of_mem _ member)⟩

theorem run_preserves {state reached : σ} {events : List ε} (holds : Good state)
    (preserves : ∀ {state event next}, Good state → step state event = some next → Good next)
    (ends : run step state events = some reached) : Good reached := by
  have every : Along step (fun _ _ => True) state events := Along.of_events fun _ _ => trivial
  exact run_invariant holds (fun good _ taken => preserves good taken) every ends

/-- What is to be kept may speak of the events so far. -/
theorem run_history {P : List ε → σ → Prop} {start reached : σ} {events : List ε} (holds : P [] start)
    (preserves : ∀ past state event next, run step start past = some state → P past state →
      step state event = some next → P (past ++ [event]) next)
    (ends : run step start events = some reached) : P events reached := by
  induction events using List.reverseRecOn generalizing reached with
  | nil =>
      cases ends
      exact holds
  | append_singleton past event ih =>
      rw [run_append] at ends
      obtain ⟨state, ran, last⟩ := Option.bind_eq_some_iff.mp ends
      obtain ⟨next, taken, done⟩ := Option.bind_eq_some_iff.mp last
      cases done
      exact preserves past state event reached ran (ih ran) taken

/-- Forward simulation: each step is matched by a run of the other system, which may
be empty. -/
theorem run_simulates {τ δ : Type} {other : τ → δ → Option τ} {Related : σ → τ → Prop} {state reached : σ}
    {first : τ} {events : List ε} (related : Related state first)
    (matched : ∀ state first event next, Related state first → step state event = some next →
      ∃ answers last, run other first answers = some last ∧ Related next last)
    (ends : run step state events = some reached) :
    ∃ answers last, run other first answers = some last ∧ Related reached last := by
  induction events generalizing state first with
  | nil =>
      cases ends
      exact ⟨[], first, rfl, related⟩
  | cons event events ih =>
      obtain ⟨next, taken, ends⟩ := Option.bind_eq_some_iff.mp ends
      obtain ⟨answers, middle, ran, relatedNext⟩ := matched state first event next related taken
      obtain ⟨more, last, ranOn, relatedLast⟩ := ih relatedNext ends
      exact ⟨answers ++ more, last, by rw [run_append, ran, Option.bind_some, ranOn], relatedLast⟩

/-- Simulation step by step, for systems that take the same events. -/
theorem run_refines {τ : Type} {other : τ → ε → Option τ} {Related : σ → τ → Prop} {state reached : σ} {first : τ}
    {events : List ε} (related : Related state first)
    (matched : ∀ state first event next, Related state first → step state event = some next →
      ∃ last, other first event = some last ∧ Related next last)
    (ends : run step state events = some reached) :
    ∃ last, run other first events = some last ∧ Related reached last := by
  induction events generalizing state first with
  | nil =>
      cases ends
      exact ⟨first, rfl, related⟩
  | cons event events ih =>
      obtain ⟨next, taken, ends⟩ := Option.bind_eq_some_iff.mp ends
      obtain ⟨middle, answered, relatedNext⟩ := matched state first event next related taken
      obtain ⟨last, ran, relatedLast⟩ := ih relatedNext ends
      exact ⟨last, by rw [run, answered, Option.bind_some, ran], relatedLast⟩

/-- A run of allowed steps keeps what every one of them preserves, and so all
that follows from it. -/
theorem Along.always {Inv : σ → Prop} {state : σ} {events : List ε} (holds : Inv state)
    (preserves : ∀ {state event next}, Inv state → Allowed state event →
      step state event = some next → Inv next)
    (implies : ∀ {state}, Inv state → Good state)
    (along : Along step Allowed state events) : Always step Good state events := by
  induction events generalizing state with
  | nil => exact implies holds
  | cons event events ih =>
      refine ⟨implies holds, fun next taken => ?_⟩
      obtain ⟨allowed, rest⟩ := along next taken
      exact ih (preserves holds allowed taken) rest

theorem Along.and_events {Each : ε → Prop} {state : σ} {events : List ε}
    (along : Along step Allowed state events) (each : ∀ event ∈ events, Each event) :
    Along step (fun state event => Allowed state event ∧ Each event) state events := by
  induction events generalizing state with
  | nil => exact along
  | cons event events ih =>
      intro next taken
      obtain ⟨allowed, rest⟩ := along next taken
      exact ⟨⟨allowed, each event List.mem_cons_self⟩,
        ih rest fun later member => each later (List.mem_cons_of_mem _ member)⟩

/-- When a step keeps a good state good exactly if it is allowed, a run stays
among good states exactly if all its steps are allowed.  What holds in all
states the run can reach may be used for that. -/
theorem always_iff_along_within {Inv : σ → Prop} {state : σ} {events : List ε} (within : Inv state)
    (holds : Good state)
    (preserves : ∀ {state event next}, Inv state → step state event = some next → Inv next)
    (exactly : ∀ {state event next}, Inv state → Good state → step state event = some next →
      (Good next ↔ Allowed state event)) :
    Always step Good state events ↔ Along step Allowed state events := by
  induction events generalizing state with
  | nil => simp [Always, Along, holds]
  | cons event events ih =>
      simp only [Always, Along, holds, true_and]
      refine forall_congr' fun next => forall_congr' fun taken => ?_
      have later := preserves within taken
      constructor
      · intro always
        have good := always.first
        exact ⟨(exactly within holds taken).mp good, (ih later good).mp always⟩
      · intro steps
        obtain ⟨allowed, along⟩ := steps
        exact (ih later ((exactly within holds taken).mpr allowed)).mpr along

theorem always_iff_along {state : σ} {events : List ε} (holds : Good state)
    (exactly : ∀ {state event next}, Good state → step state event = some next →
      (Good next ↔ Allowed state event)) :
    Always step Good state events ↔ Along step Allowed state events :=
  always_iff_along_within trivial holds (fun _ _ => trivial) fun _ => exactly

/-- How many of the steps that a run takes are not allowed. -/
def breaches (step : σ → ε → Option σ) (Allowed : σ → ε → Prop)
    [∀ state event, Decidable (Allowed state event)] : σ → List ε → Nat
  | _, [] => 0
  | state, event :: events =>
      match step state event with
      | none => 0
      | some next => (if Allowed state event then 0 else 1) + breaches step Allowed next events

theorem breaches_eq_zero_iff [∀ state event, Decidable (Allowed state event)] {state : σ} {events : List ε} :
    breaches step Allowed state events = 0 ↔ Along step Allowed state events := by
  induction events generalizing state with
  | nil => simp [breaches, Along]
  | cons event events ih =>
      rw [breaches, Along]
      cases step state event with
      | none => simp
      | some next => simp [ih]

/-- A quantity that allowed steps keep, and that every other step raises by one,
is at the end what it was and the number of the others. -/
theorem run_breaches [∀ state event, Decidable (Allowed state event)] {Inv : Nat → σ → Prop}
    {amount : Nat} {state reached : σ} {events : List ε} (holds : Inv amount state)
    (each : ∀ {amount state event next}, Inv amount state → step state event = some next →
      Inv (amount + if Allowed state event then 0 else 1) next)
    (ends : run step state events = some reached) : Inv (amount + breaches step Allowed state events) reached := by
  induction events generalizing amount state with
  | nil =>
      cases ends
      exact holds
  | cons event events ih =>
      obtain ⟨next, taken, ends⟩ := Option.bind_eq_some_iff.mp ends
      simp only [breaches, taken, ← Nat.add_assoc]
      exact ih (each holds taken) ends

theorem throughout_congr_within {Inv : σ → Prop} {Permitted : σ → ε → Prop} {state : σ} {events : List ε}
    (within : Inv state)
    (preserves : ∀ event ∈ events, ∀ state next, Inv state → step state event = some next → Inv next)
    (exactly : ∀ event ∈ events, ∀ state, Inv state → (Allowed state event ↔ Permitted state event)) :
    Throughout step Allowed state events ↔ Throughout step Permitted state events := by
  induction events generalizing state with
  | nil => exact Iff.rfl
  | cons event events ih =>
      rw [List.forall_mem_cons] at preserves exactly
      refine and_congr (exactly.1 state within) (forall_congr' fun next => forall_congr' fun taken => ?_)
      exact ih (preserves.1 state next within taken) preserves.2 exactly.2

theorem throughout_congr {Permitted : σ → ε → Prop} {state : σ} {events : List ε}
    (exactly : ∀ state event, Allowed state event ↔ Permitted state event) :
    Throughout step Allowed state events ↔ Throughout step Permitted state events :=
  throughout_congr_within trivial (fun _ _ _ _ _ _ => trivial) fun event _ state _ => exactly state event

section Hidden

variable {ω : Type} {observe : σ → ω} {hidden : ε → Bool}

/-- At no point of a run can it be told whether the hidden events were left out. -/
def Unnoticed (step : σ → ε → Option σ) (observe : σ → ω) (hidden : ε → Bool) (first second : σ)
    (events : List ε) : Prop :=
  ∀ earlier, earlier <+: events → ∃ all visible, run step first earlier = some all ∧
    run step second (earlier.filter fun event => !hidden event) = some visible ∧ observe all = observe visible

theorem Unnoticed.first {first second : σ} {events : List ε}
    (unnoticed : Unnoticed step observe hidden first second events) : observe first = observe second := by
  obtain ⟨all, visible, ran, left, same⟩ := unnoticed [] List.nil_prefix
  cases ran
  cases left
  exact same

theorem unnoticed_cons {first second next : σ} {event : ε} {events : List ε} (same : observe first = observe second)
    (taken : step first event = some next) (left : σ)
    (rest : ∀ earlier, run step second ((event :: earlier).filter fun event => !hidden event) =
      run step left (earlier.filter fun event => !hidden event)) :
    Unnoticed step observe hidden first second (event :: events) ↔
      Unnoticed step observe hidden next left events := by
  constructor
  · intro unnoticed earlier part
    obtain ⟨all, visible, ran, without, alike⟩ := unnoticed (event :: earlier) (by simpa using part)
    rw [run, taken, Option.bind_some] at ran
    rw [rest] at without
    exact ⟨all, visible, ran, without, alike⟩
  · intro unnoticed earlier part
    rcases List.prefix_cons_iff.mp part with empty | longer
    · subst empty
      exact ⟨first, second, rfl, rfl, same⟩
    · obtain ⟨later, rfl, laterPart⟩ := longer
      obtain ⟨all, visible, ran, without, alike⟩ := unnoticed later laterPart
      exact ⟨all, visible, by rw [run, taken, Option.bind_some, ran], by rw [rest, without], alike⟩

/-- Hidden events go unnoticed exactly when none of them changes what is seen. -/
theorem unnoticed_iff {Inv : σ → Prop} {events : List ε} {first second : σ}
    (enabled : ∀ event ∈ events, ∀ state, Inv state → ∃ next, step state event = some next ∧ Inv next)
    (alike : ∀ event ∈ events, hidden event = false → ∀ first second next other,
      observe first = observe second → step first event = some next → step second event = some other →
      observe next = observe other)
    (within : Inv first) (withinSecond : Inv second) (same : observe first = observe second) :
    Unnoticed step observe hidden first second events ↔
      Throughout step (fun state event => hidden event = true → ∀ next ∈ step state event,
        observe next = observe state) first events := by
  induction events generalizing first second with
  | nil =>
      refine ⟨fun _ => trivial, fun _ earlier part => ?_⟩
      rw [List.prefix_nil.mp part]
      exact ⟨first, second, rfl, rfl, same⟩
  | cons event events ih =>
      rw [List.forall_mem_cons] at enabled alike
      obtain ⟨next, taken, later⟩ := enabled.1 first within
      simp only [Throughout, taken, Option.mem_some_iff, forall_eq']
      cases shown : hidden event with
      | false =>
          obtain ⟨other, takenSecond, laterSecond⟩ := enabled.1 second withinSecond
          rw [unnoticed_cons same taken other fun earlier => by
            rw [List.filter_cons_of_pos (by simp [shown]), run, takenSecond, Option.bind_some]]
          simp only [Bool.false_eq_true, false_implies, true_and]
          exact ih enabled.2 alike.2 later laterSecond (alike.1 shown _ _ _ _ same taken takenSecond)
      | true =>
          rw [unnoticed_cons same taken second fun earlier => by
            rw [List.filter_cons_of_neg (by simp [shown])]]
          simp only [true_implies]
          constructor
          · intro unnoticed
            have kept := unnoticed.first.trans same.symm
            exact ⟨kept, (ih enabled.2 alike.2 later withinSecond (kept.trans same)).mp unnoticed⟩
          · intro kept
            exact (ih enabled.2 alike.2 later withinSecond (kept.1.trans same)).mpr kept.2

end Hidden

end Webapp.Data

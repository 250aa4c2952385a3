import Webapp.Data.Runs

namespace Webapp.Data

/-! Two threads on one memory.  A thread has a state of its own, and each of its
steps changes that state and the memory.  Invariants may speak of auxiliary
values that no thread stores, such as what the memory stands for.
-/

variable {σ κ μ ε δ γ : Type}

structure Threads (σ κ μ : Type) where
  memory : σ
  left : κ
  right : μ

namespace Threads

/-- Either thread takes a step, in any order. -/
def step (leftStep : σ → κ → ε → Option (σ × κ)) (rightStep : σ → μ → δ → Option (σ × μ))
    (threads : Threads σ κ μ) : ε ⊕ δ → Option (Threads σ κ μ)
  | .inl event => (leftStep threads.memory threads.left event).map fun after =>
      { threads with memory := after.1, left := after.2 }
  | .inr event => (rightStep threads.memory threads.right event).map fun after =>
      { threads with memory := after.1, right := after.2 }

section

variable {leftStep : σ → κ → ε → Option (σ × κ)} {rightStep : σ → μ → δ → Option (σ × μ)}
  {threads next : Threads σ κ μ}

theorem step_inl {event : ε} (taken : threads.step leftStep rightStep (.inl event) = some next) :
    ∃ memory left, leftStep threads.memory threads.left event = some (memory, left) ∧
      next = { threads with memory, left } := by
  obtain ⟨after, went, rfl⟩ := Option.map_eq_some_iff.mp taken
  exact ⟨after.1, after.2, went, rfl⟩

theorem step_inr {event : δ} (taken : threads.step leftStep rightStep (.inr event) = some next) :
    ∃ memory right, rightStep threads.memory threads.right event = some (memory, right) ∧
      next = { threads with memory, right } := by
  obtain ⟨after, went, rfl⟩ := Option.map_eq_some_iff.mp taken
  exact ⟨after.1, after.2, went, rfl⟩

end

end Threads

/-- Where the thread may take a step there is one, and it keeps the invariant,
what the thread knows of the memory, and what it promises the other thread. -/
def Proceeds (step : σ → κ → ε → Option (σ × κ)) (Able : κ → ε → Prop) (Inv : γ → σ → Prop)
    (Knows : γ → σ → κ → Prop) (Guarantee : γ → σ → γ → σ → Prop) : Prop :=
  ∀ ghost memory state event, Inv ghost memory → Knows ghost memory state → Able state event →
    ∃ memory' state' ghost', step memory state event = some (memory', state') ∧ Inv ghost' memory' ∧
      Knows ghost' memory' state' ∧ Guarantee ghost memory ghost' memory'

/-- What a thread knows stays true while the other thread keeps its promise. -/
def Stable (Inv : γ → σ → Prop) (Knows : γ → σ → κ → Prop) (Rely : γ → σ → γ → σ → Prop) : Prop :=
  ∀ ghost ghost' memory memory' state, Inv ghost memory → Inv ghost' memory' → Rely ghost memory ghost' memory' →
    Knows ghost memory state → Knows ghost' memory' state

/-- The invariant holds, and each thread knows what its state says. -/
def Joint (Inv : γ → σ → Prop) (Left : γ → σ → κ → Prop) (Right : γ → σ → μ → Prop) (threads : Threads σ κ μ) : Prop :=
  ∃ ghost, Inv ghost threads.memory ∧ Left ghost threads.memory threads.left ∧
    Right ghost threads.memory threads.right

section Parallel

variable {leftStep : σ → κ → ε → Option (σ × κ)} {rightStep : σ → μ → δ → Option (σ × μ)}
  {LeftAble : κ → ε → Prop} {RightAble : μ → δ → Prop}
  {Inv : γ → σ → Prop} {Left : γ → σ → κ → Prop} {Right : γ → σ → μ → Prop}
  {LeftGuarantee RightGuarantee : γ → σ → γ → σ → Prop} {threads next : Threads σ κ μ}

theorem Joint.left_step (proceeds : Proceeds leftStep LeftAble Inv Left LeftGuarantee)
    (stable : Stable Inv Right LeftGuarantee) (joint : Joint Inv Left Right threads) {event : ε}
    (able : LeftAble threads.left event) :
    ∃ next, threads.step leftStep rightStep (.inl event) = some next ∧ Joint Inv Left Right next := by
  obtain ⟨ghost, inv, left, right⟩ := joint
  obtain ⟨memory', state', ghost', taken, inv', left', promise⟩ := proceeds _ _ _ _ inv left able
  exact ⟨{ threads with memory := memory', left := state' }, by rw [Threads.step, taken]; rfl,
    ghost', inv', left', stable _ _ _ _ _ inv inv' promise right⟩

theorem Joint.right_step (proceeds : Proceeds rightStep RightAble Inv Right RightGuarantee)
    (stable : Stable Inv Left RightGuarantee) (joint : Joint Inv Left Right threads) {event : δ}
    (able : RightAble threads.right event) :
    ∃ next, threads.step leftStep rightStep (.inr event) = some next ∧ Joint Inv Left Right next := by
  obtain ⟨ghost, inv, left, right⟩ := joint
  obtain ⟨memory', state', ghost', taken, inv', right', promise⟩ := proceeds _ _ _ _ inv right able
  exact ⟨{ threads with memory := memory', right := state' }, by rw [Threads.step, taken]; rfl,
    ghost', inv', stable _ _ _ _ _ inv inv' promise left, right'⟩

/-- The rule for two threads in parallel: each is shown correct alone, from what
the other promises. -/
theorem Joint.step (leftProceeds : Proceeds leftStep LeftAble Inv Left LeftGuarantee)
    (rightProceeds : Proceeds rightStep RightAble Inv Right RightGuarantee)
    (leftStable : Stable Inv Left RightGuarantee) (rightStable : Stable Inv Right LeftGuarantee)
    (leftAble : ∀ memory state event, (leftStep memory state event).isSome → LeftAble state event)
    (rightAble : ∀ memory state event, (rightStep memory state event).isSome → RightAble state event)
    (joint : Joint Inv Left Right threads) {event : ε ⊕ δ}
    (taken : threads.step leftStep rightStep event = some next) : Joint Inv Left Right next := by
  cases event with
  | inl event =>
      obtain ⟨memory, left, went, _⟩ := Threads.step_inl taken
      have able : LeftAble threads.left event := leftAble threads.memory _ _ (by rw [went]; rfl)
      obtain ⟨next', taken', joint'⟩ := joint.left_step leftProceeds rightStable able
      rw [taken] at taken'
      cases taken'
      exact joint'
  | inr event =>
      obtain ⟨memory, right, went, _⟩ := Threads.step_inr taken
      have able : RightAble threads.right event := rightAble threads.memory _ _ (by rw [went]; rfl)
      obtain ⟨next', taken', joint'⟩ := joint.right_step rightProceeds leftStable able
      rw [taken] at taken'
      cases taken'
      exact joint'

end Parallel

end Webapp.Data

import Webapp.Data.Heap

namespace Webapp.Data

/-! Owners of blocks.  What an owner holds is there, every block has one owner. -/

structure Owned {ι β : Type} (heap : Heap β) (holds : ι → Option Nat) : Prop where
  live : ∀ owner address, holds owner = some address → heap.blocks address ≠ none
  unique : ∀ first second address, holds first = some address → holds second = some address → first = second
  owned : ∀ address, heap.blocks address ≠ none → ∃ owner, holds owner = some address

namespace Owned

variable {ι β : Type} {heap after : Heap β} {holds : ι → Option Nat} {owner other : ι} {address : Nat}

theorem nothing (none : ∀ owner, holds owner = none) (empty : ∀ address, heap.blocks address = Option.none) :
    Owned heap holds := by
  refine ⟨?_, ?_, ?_⟩
  · intro owner address held
    simp [none] at held
  · intro first second address held
    simp [none] at held
  · intro address there
    exact absurd (empty address) there

theorem empty (owned : Owned heap holds) (none : ∀ owner, holds owner = none) (address : Nat) :
    heap.blocks address = Option.none := by
  by_contra there
  obtain ⟨owner, held⟩ := owned.owned address there
  simp [none] at held

variable [DecidableEq ι]

/-- A new block goes to an owner that has none. -/
theorem added (owned : Owned heap holds) {block : β} (missing : heap.blocks address = none)
    (blocks : after.blocks = Function.update heap.blocks address (some block)) (idle : holds owner = none) :
    Owned after (Function.update holds owner (some address)) := by
  have unheld (someone : ι) : holds someone ≠ some address := by
    intro held
    exact owned.live someone address held missing
  refine ⟨?_, ?_, ?_⟩
  · intro someone place held
    rw [blocks]
    by_cases here : place = address
    · simp [here]
    · rw [Function.update_of_ne here]
      by_cases same : someone = owner
      · rw [same, Function.update_self] at held
        exact absurd (Option.some.inj held).symm here
      · rw [Function.update_of_ne same] at held
        exact owned.live someone place held
  · intro first second place firstHeld secondHeld
    rcases eq_or_ne first owner with rfl | firstOther
    · rw [Function.update_self] at firstHeld
      cases firstHeld
      by_contra apart
      rw [Function.update_of_ne (Ne.symm apart)] at secondHeld
      exact unheld second secondHeld
    · rw [Function.update_of_ne firstOther] at firstHeld
      rcases eq_or_ne second owner with rfl | secondOther
      · rw [Function.update_self] at secondHeld
        cases secondHeld
        exact absurd firstHeld (unheld first)
      · rw [Function.update_of_ne secondOther] at secondHeld
        exact owned.unique first second place firstHeld secondHeld
  · intro place there
    by_cases here : place = address
    · exact ⟨owner, by rw [Function.update_self, here]⟩
    · rw [blocks, Function.update_of_ne here] at there
      obtain ⟨someone, held⟩ := owned.owned place there
      refine ⟨someone, ?_⟩
      rw [Function.update_of_ne ?_, held]
      intro same
      rw [same, idle] at held
      cases held

theorem allocated (owned : Owned heap holds) (block : β) (idle : holds owner = none) :
    Owned (heap.allocate block) (Function.update holds owner (some heap.next)) :=
  owned.added heap.next_missing rfl idle

theorem removed (owned : Owned heap holds) (held : holds owner = some address)
    (blocks : after.blocks = Function.update heap.blocks address none) :
    Owned after (Function.update holds owner none) := by
  have others {someone : ι} {place : Nat} (kept : Function.update holds owner none someone = some place) :
      someone ≠ owner ∧ holds someone = some place := by
    rcases eq_or_ne someone owner with rfl | apart
    · simp at kept
    · exact ⟨apart, by rwa [Function.update_of_ne apart] at kept⟩
  refine ⟨?_, ?_, ?_⟩
  · intro someone place kept
    obtain ⟨apart, before⟩ := others kept
    rw [blocks, Function.update_of_ne ?_]
    · exact owned.live someone place before
    · intro here
      exact apart (owned.unique someone owner address (here ▸ before) held)
  · intro first second place firstKept secondKept
    exact owned.unique first second place (others firstKept).2 (others secondKept).2
  · intro place there
    rw [blocks] at there
    have away : place ≠ address := by
      intro here
      simp [here] at there
    rw [Function.update_of_ne away] at there
    obtain ⟨someone, before⟩ := owned.owned place there
    refine ⟨someone, ?_⟩
    rw [Function.update_of_ne ?_, before]
    intro same
    rw [same, held] at before
    exact away (Option.some.inj before).symm

theorem freed (owned : Owned heap holds) (held : holds owner = some address) :
    ∃ after, heap.free address = some after ∧ after.blocks = Function.update heap.blocks address none ∧
      Owned after (Function.update holds owner none) := by
  obtain ⟨block, found⟩ := Option.ne_none_iff_exists'.mp (owned.live owner address held)
  obtain ⟨after, removed, blocks⟩ := Heap.put_found none found
  exact ⟨after, removed, blocks, owned.removed held blocks⟩

/-- A block can be handed to an owner that has none. -/
theorem moved (owned : Owned heap holds) (held : holds owner = some address) (idle : holds other = none) :
    Owned heap (Function.update (Function.update holds owner none) other (some address)) := by
  have apart : owner ≠ other := by
    intro same
    rw [same, idle] at held
    cases held
  have kept {someone : ι} {place : Nat}
      (now : Function.update (Function.update holds owner none) other (some address) someone = some place) :
      (someone = other ∧ place = address) ∨ (someone ≠ owner ∧ holds someone = some place) := by
    rcases eq_or_ne someone other with rfl | elsewhere
    · rw [Function.update_self] at now
      exact Or.inl ⟨rfl, (Option.some.inj now).symm⟩
    · rw [Function.update_of_ne elsewhere] at now
      rcases eq_or_ne someone owner with rfl | different
      · simp at now
      · rw [Function.update_of_ne different] at now
        exact Or.inr ⟨different, now⟩
  refine ⟨?_, ?_, ?_⟩
  · intro someone place now
    rcases kept now with ⟨_, rfl⟩ | ⟨_, before⟩
    · exact owned.live owner _ held
    · exact owned.live someone place before
  · intro first second place firstNow secondNow
    rcases kept firstNow with ⟨rfl, rfl⟩ | ⟨firstApart, firstBefore⟩
    · rcases kept secondNow with ⟨rfl, _⟩ | ⟨secondApart, secondBefore⟩
      · rfl
      · exact absurd (owned.unique second owner _ secondBefore held) secondApart
    · rcases kept secondNow with ⟨rfl, rfl⟩ | ⟨_, secondBefore⟩
      · exact absurd (owned.unique first owner _ firstBefore held) firstApart
      · exact owned.unique first second place firstBefore secondBefore
  · intro place there
    obtain ⟨someone, before⟩ := owned.owned place there
    rcases eq_or_ne someone owner with rfl | different
    · rw [held] at before
      cases before
      exact ⟨other, Function.update_self ..⟩
    · refine ⟨someone, ?_⟩
      rw [Function.update_of_ne ?_, Function.update_of_ne different, before]
      intro same
      rw [same, idle] at before
      cases before

end Owned

end Webapp.Data

import Mathlib
import Webapp.Data.Runs

namespace Webapp.Data

/-! Resources that are acquired, passed on and released.  A resource is known by
the place that holds it, so that it may be acquired again after its release.
-/

inductive Use (ρ : Type) where
  | acquire (resource : ρ)
  | pass (resource : ρ)
  | release (resource : ρ)
deriving DecidableEq, Repr

variable {ρ : Type} [DecidableEq ρ]

/-- One use, for the resources that are live.  Losing a live resource, and passing
or releasing one that is not, is an error. -/
def use (live : ρ → Bool) : Use ρ → Option (ρ → Bool)
  | .acquire resource => if live resource then none else some (Function.update live resource true)
  | .pass resource => if live resource then some live else none
  | .release resource => if live resource then some (Function.update live resource false) else none

/-- Everything that is acquired is released exactly once, and nothing is used
before or after. -/
def Balanced (uses : List (Use ρ)) : Prop := run use (fun _ => false) uses = some fun _ => false

/-- The uses that lead from some live resources to others. -/
def Leads (live : ρ → Bool) (uses : List (Use ρ)) (after : ρ → Bool) : Prop := run use live uses = some after

variable {live middle after : ρ → Bool} {uses more : List (Use ρ)} {resource : ρ}

theorem Leads.nil (live : ρ → Bool) : Leads live [] live := rfl

theorem Leads.append (first : Leads live uses middle) (second : Leads middle more after) :
    Leads live (uses ++ more) after := by
  rw [Leads, run_append, first]
  exact second

theorem Leads.acquire (missing : live resource = false) :
    Leads live [.acquire resource] (Function.update live resource true) := by
  simp [Leads, run, use, missing]

theorem Leads.acquire_two {other : ρ} (missing : live resource = false) (missingOther : live other = false)
    (different : other ≠ resource) :
    Leads live [.acquire resource, .acquire other] (Function.update (Function.update live resource true) other true) := by
  refine (Leads.acquire missing).append (Leads.acquire ?_)
  rw [Function.update_of_ne different, missingOther]

theorem Leads.release (held : live resource = true) :
    Leads live [.release resource] (Function.update live resource false) := by
  simp [Leads, run, use, held]

theorem Leads.pass (held : live resource = true) : Leads live [.pass resource] live := by
  simp [Leads, run, use, held]

/-- Passing what is held, as often as it may be, changes nothing. -/
theorem Leads.passes (live : ρ → Bool) (resources : List ρ) :
    Leads live ((resources.filter fun resource => live resource).map .pass) live := by
  induction resources with
  | nil => rfl
  | cons resource resources ih =>
      cases held : live resource with
      | true =>
          rw [List.filter_cons_of_pos held, List.map_cons]
          exact (Leads.pass held).append ih
      | false =>
          rw [List.filter_cons_of_neg (by simp [held])]
          exact ih

/-- Releasing what is held of some different resources leaves the others. -/
theorem Leads.releases {resources : List ρ} (different : resources.Nodup) (live : ρ → Bool) :
    Leads live ((resources.filter fun resource => live resource).map .release)
      fun resource => live resource && !decide (resource ∈ resources) := by
  induction resources generalizing live with
  | nil => simp [Leads, run]
  | cons resource resources ih =>
      obtain ⟨absent, different⟩ := List.nodup_cons.mp different
      have kept : (resources.filter fun other => Function.update live resource false other) =
          resources.filter fun other => live other := by
        apply List.filter_congr
        intro other member
        have apart : other ≠ resource := fun same => absent (same ▸ member)
        rw [Function.update_of_ne apart]
      have rest := ih different (Function.update live resource false)
      rw [kept] at rest
      have ends : (fun other => Function.update live resource false other && !decide (other ∈ resources)) =
          fun other => live other && !decide (other ∈ resource :: resources) := by
        funext other
        by_cases same : other = resource
        · simp [same]
        · simp [same]
      rw [ends] at rest
      cases held : live resource with
      | true =>
          rw [List.filter_cons_of_pos held, List.map_cons]
          exact (Leads.release held).append rest
      | false =>
          have unchanged : Function.update live resource false = live := by rw [← held, Function.update_eq_self]
          rw [List.filter_cons_of_neg (by simp [held])]
          rw [unchanged] at rest
          exact rest

theorem Leads.unique {other : ρ → Bool} (first : Leads live uses after) (second : Leads live uses other) :
    after = other := Option.some.inj (first.symm.trans second)

end Webapp.Data

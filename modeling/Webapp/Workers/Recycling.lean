import Webapp.Workers.Pools

namespace Webapp.Workers

open Webapp.Data

/-! `LockedQueue` as the finished requests use it: `enqueue` and `try_dequeue`,
with any number of calls in progress.  Both come to the counter after the queue,
in a step of its own.
-/

/-- A call of `try_dequeue`.  With an element in hand it still has to take the
lock. -/
inductive TryDequeueCall (α : Type) where
  | testing
  | popping
  | discounting (item : α)
  | returned (result : Option α)
deriving DecidableEq

namespace TryDequeueCall

def undiscounted {α : Type} : TryDequeueCall α → Bool
  | .discounting _ => true
  | _ => false

def inProgress {α : Type} : TryDequeueCall α → Bool
  | .returned _ => false
  | _ => true

end TryDequeueCall

def EnqueueCall.inProgress {α : Type} : EnqueueCall α → Bool
  | .returned _ => false
  | _ => true

/-- The calls of `enqueue` are those of `Traffic`, whose consumer stays idle. -/
structure Recycling (α : Type) where
  traffic : Traffic α
  dequeues : List (TryDequeueCall α)

inductive RecyclingMove (α : Type) where
  | enqueue (item : α)
  | advance (call : Nat)
  | tryDequeue
  | proceed (call : Nat)

namespace Recycling

variable {α : Type}

def start : Recycling α := ⟨.start, []⟩

def shared (recycling : Recycling α) : LockedQueue α := recycling.traffic.shared

/-- A call of `try_dequeue` goes on, and leaves the queue as given. -/
def put (recycling : Recycling α) (shared : LockedQueue α) (call : Nat) (next : TryDequeueCall α) : Recycling α :=
  ⟨{ recycling.traffic with shared }, recycling.dequeues.set call next⟩

def proceed (recycling : Recycling α) (call : Nat) : Option (Recycling α) :=
  let shared := recycling.shared
  match recycling.dequeues[call]? with
  | some .testing =>
      if shared.aborted then some (recycling.put shared call (.returned none))
      else some (recycling.put shared call .popping)
  | some .popping =>
      match shared.queue with
      | [] => some (recycling.put shared call (.returned none))
      | none :: rest => some (recycling.put { shared with queue := rest } call (.returned none))
      | some item :: rest => some (recycling.put { shared with queue := rest } call (.discounting item))
  | some (.discounting item) =>
      if 0 < shared.count then
        some (recycling.put { shared with count := shared.count - 1 } call (.returned (some item)))
      else some (recycling.put shared call (.returned (some item)))
  | some (.returned _) | none => none

def step (recycling : Recycling α) : RecyclingMove α → Option (Recycling α)
  | .enqueue item => (recycling.traffic.step (.enqueue item)).map fun traffic => { recycling with traffic }
  | .advance call => (recycling.traffic.step (.advance call)).map fun traffic => { recycling with traffic }
  | .tryDequeue => some { recycling with dequeues := recycling.dequeues ++ [.testing] }
  | .proceed call => recycling.proceed call

/-- No call is in progress. -/
def Quiescent (recycling : Recycling α) : Prop :=
  recycling.traffic.calls.countP EnqueueCall.inProgress = 0 ∧
    recycling.dequeues.countP TryDequeueCall.inProgress = 0

/-- A call that has taken an element finds the counter positive. -/
def Discounts (recycling : Recycling α) : RecyclingMove α → Prop
  | .proceed call =>
      (recycling.dequeues[call]?.any TryDequeueCall.undiscounted) = true → 0 < recycling.shared.count
  | _ => True

instance Discounts.decidable (recycling : Recycling α) :
    (move : RecyclingMove α) → Decidable (recycling.Discounts move)
  | .proceed call => inferInstanceAs (Decidable
      ((recycling.dequeues[call]?.any TryDequeueCall.undiscounted) = true → 0 < recycling.shared.count))
  | .enqueue _ | .advance _ | .tryDequeue => isTrue trivial

inductive Proceeded (recycling : Recycling α) (call : Nat) : Recycling α → Prop
  | refuse (found : recycling.dequeues[call]? = some .testing) :
      Proceeded recycling call (recycling.put recycling.shared call (.returned none))
  | enter (found : recycling.dequeues[call]? = some .testing) :
      Proceeded recycling call (recycling.put recycling.shared call .popping)
  | empty (found : recycling.dequeues[call]? = some .popping) :
      Proceeded recycling call (recycling.put recycling.shared call (.returned none))
  | null {rest : List (Option α)} (found : recycling.dequeues[call]? = some .popping)
      (shape : recycling.shared.queue = none :: rest) :
      Proceeded recycling call (recycling.put { recycling.shared with queue := rest } call (.returned none))
  | pop {item : α} {rest : List (Option α)} (found : recycling.dequeues[call]? = some .popping)
      (shape : recycling.shared.queue = some item :: rest) :
      Proceeded recycling call (recycling.put { recycling.shared with queue := rest } call (.discounting item))
  | discount {item : α} (found : recycling.dequeues[call]? = some (.discounting item))
      (positive : 0 < recycling.shared.count) :
      Proceeded recycling call
        (recycling.put { recycling.shared with count := recycling.shared.count - 1 } call (.returned (some item)))
  | miss {item : α} (found : recycling.dequeues[call]? = some (.discounting item))
      (zero : recycling.shared.count = 0) :
      Proceeded recycling call (recycling.put recycling.shared call (.returned (some item)))

theorem proceed_proceeded {recycling next : Recycling α} {call : Nat} (taken : recycling.proceed call = some next) :
    Proceeded recycling call next := by
  simp only [proceed] at taken
  split at taken
  · rename_i found
    split at taken
    · cases taken
      exact .refuse found
    · cases taken
      exact .enter found
  · rename_i found
    split at taken
    · cases taken
      exact .empty found
    · rename_i rest shape
      cases taken
      exact .null found shape
    · rename_i item rest shape
      cases taken
      exact .pop found shape
  · rename_i item found
    split at taken
    · rename_i positive
      cases taken
      exact .discount found positive
    · rename_i zero
      cases taken
      exact .miss found (by omega)
  · contradiction
  · contradiction

/-- The counter and the calls about to raise it, against the elements and the
calls about to lower it.  They differ by the decrements that were left out. -/
structure Balanced (missed : Nat) (recycling : Recycling α) : Prop where
  size : recycling.shared.count + recycling.traffic.calls.countP EnqueueCall.uncounted =
    recycling.shared.queue.length + recycling.dequeues.countP TryDequeueCall.undiscounted + missed
  elements : none ∉ recycling.shared.queue
  items : ∀ call ∈ recycling.traffic.calls, call.item ≠ none

theorem Balanced.start : Balanced 0 (start : Recycling α) where
  size := rfl
  elements := List.not_mem_nil
  items call member := by contradiction

section

variable {recycling next : Recycling α} {missed : Nat}

theorem Balanced.set (balanced : recycling.Balanced missed) {call : Nat} {before after : EnqueueCall α}
    {traffic : Traffic α} (found : recycling.traffic.calls[call]? = some before)
    (calls : traffic.calls = recycling.traffic.calls.set call after) (same : after.item = before.item)
    (moved : traffic.shared.count + recycling.shared.queue.length + (if after.uncounted then 1 else 0) =
      recycling.shared.count + traffic.shared.queue.length + (if before.uncounted then 1 else 0))
    (elements : none ∉ traffic.shared.queue) : Balanced missed { recycling with traffic } where
  size := by
    have counted := Traffic.countP_set found EnqueueCall.uncounted after
    have size := balanced.size
    rw [← calls] at counted
    change traffic.shared.count + traffic.calls.countP EnqueueCall.uncounted =
      traffic.shared.queue.length + recycling.dequeues.countP TryDequeueCall.undiscounted + missed
    omega
  elements := elements
  items := by
    rw [calls]
    refine Traffic.forall_mem_set balanced.items found fun given => ?_
    rw [same]
    exact given

theorem Balanced.enqueue (balanced : recycling.Balanced missed) {item : α} {traffic : Traffic α}
    (taken : recycling.traffic.step (.enqueue item) = some traffic) : Balanced missed { recycling with traffic } := by
  cases taken
  refine ⟨?_, balanced.elements, ?_⟩
  · simpa [shared, EnqueueCall.uncounted] using balanced.size
  · intro call member
    rcases List.mem_append.mp member with old | new
    · exact balanced.items call old
    · obtain rfl := List.mem_singleton.mp new
      simp [EnqueueCall.item]

theorem Balanced.advance (balanced : recycling.Balanced missed) {call : Nat} {traffic : Traffic α}
    (taken : recycling.traffic.step (.advance call) = some traffic) : Balanced missed { recycling with traffic } := by
  cases Traffic.step_took taken with
  | refuse found _ => exact balanced.set found rfl rfl rfl balanced.elements
  | proceed found _ => exact balanced.set found rfl rfl rfl balanced.elements
  | @push call item found =>
      refine balanced.set found rfl rfl ?_ ?_
      · simp [shared, EnqueueCall.uncounted, Nat.add_assoc]
      · have given : item ≠ none := balanced.items _ (List.mem_of_getElem? found)
        intro member
        rcases List.mem_append.mp member with old | new
        · exact balanced.elements old
        · exact given (List.mem_singleton.mp new).symm
  | count found =>
      refine balanced.set found rfl rfl ?_ balanced.elements
      simp only [shared, EnqueueCall.uncounted, Bool.false_eq_true, if_false, if_true]
      omega

theorem Balanced.put (balanced : recycling.Balanced missed) {call later : Nat} {before after : TryDequeueCall α}
    {shared : LockedQueue α} (found : recycling.dequeues[call]? = some before)
    (moved : shared.count + recycling.shared.queue.length + (if before.undiscounted then 1 else 0) + missed =
      recycling.shared.count + shared.queue.length + (if after.undiscounted then 1 else 0) + later)
    (elements : none ∉ shared.queue) : Balanced later (recycling.put shared call after) where
  size := by
    have counted := Traffic.countP_set found TryDequeueCall.undiscounted after
    have size := balanced.size
    change shared.count + recycling.traffic.calls.countP EnqueueCall.uncounted =
      shared.queue.length + (recycling.dequeues.set call after).countP TryDequeueCall.undiscounted + later
    omega
  elements := elements
  items := balanced.items

theorem discounts_iff {call : Nat} {before : TryDequeueCall α} (found : recycling.dequeues[call]? = some before) :
    recycling.Discounts (.proceed call) ↔ (before.undiscounted = true → 0 < recycling.shared.count) := by
  rw [Discounts, found, Option.any_some]

theorem discounts_of_empty {call : Nat} {before : TryDequeueCall α}
    (found : recycling.dequeues[call]? = some before) (none : before.undiscounted = false) :
    recycling.Discounts (.proceed call) :=
  (discounts_iff found).mpr fun some => Bool.noConfusion (none.symm.trans some)

theorem Balanced.proceed {call : Nat} (balanced : recycling.Balanced missed)
    (taken : recycling.proceed call = some next) :
    next.Balanced (missed + if recycling.Discounts (.proceed call) then 0 else 1) := by
  cases proceed_proceeded taken with
  | refuse found | enter found | empty found =>
      rw [if_pos (discounts_of_empty found rfl)]
      exact balanced.put found rfl balanced.elements
  | null found shape =>
      have member : none ∈ recycling.shared.queue := by simp [shape]
      exact absurd member balanced.elements
  | pop found shape =>
      rw [if_pos (discounts_of_empty found rfl)]
      refine balanced.put found ?_ ?_
      · simp only [shape, List.length_cons, TryDequeueCall.undiscounted, Bool.false_eq_true, if_false, if_true]
        omega
      · intro member
        exact balanced.elements (by simp [shape, member])
  | discount found positive =>
      rw [if_pos ((discounts_iff found).mpr fun _ => positive)]
      refine balanced.put found ?_ balanced.elements
      simp only [TryDequeueCall.undiscounted, Bool.false_eq_true, if_false, if_true]
      omega
  | miss found zero =>
      have missing : ¬ recycling.Discounts (.proceed call) := by
        intro discounts
        have positive := (discounts_iff found).mp discounts rfl
        omega
      rw [if_neg missing]
      refine balanced.put found ?_ balanced.elements
      simp only [TryDequeueCall.undiscounted, Bool.false_eq_true, if_false, if_true]
      omega

theorem Balanced.step {move : RecyclingMove α} (balanced : recycling.Balanced missed)
    (taken : recycling.step move = some next) :
    next.Balanced (missed + if recycling.Discounts move then 0 else 1) := by
  cases move with
  | enqueue item =>
      rw [Recycling.step, Option.map_eq_some_iff] at taken
      obtain ⟨traffic, stepped, rfl⟩ := taken
      exact balanced.enqueue stepped
  | advance call =>
      rw [Recycling.step, Option.map_eq_some_iff] at taken
      obtain ⟨traffic, stepped, rfl⟩ := taken
      exact balanced.advance stepped
  | tryDequeue =>
      cases taken
      refine ⟨?_, balanced.elements, balanced.items⟩
      simpa [shared, TryDequeueCall.undiscounted, Discounts] using balanced.size
  | proceed call => exact balanced.proceed taken

theorem uncounted_le (calls : List (EnqueueCall α)) :
    calls.countP EnqueueCall.uncounted ≤ calls.countP EnqueueCall.inProgress := by
  refine List.countP_mono_left fun call _ uncounted => ?_
  cases call with
  | counting item => rfl
  | testing item | pushing item | returned item => contradiction

theorem undiscounted_le (calls : List (TryDequeueCall α)) :
    calls.countP TryDequeueCall.undiscounted ≤ calls.countP TryDequeueCall.inProgress := by
  refine List.countP_mono_left fun call _ undiscounted => ?_
  cases call with
  | discounting item => rfl
  | testing | popping | returned result => contradiction

theorem Balanced.quiescent (balanced : recycling.Balanced missed) (quiescent : recycling.Quiescent) :
    recycling.shared.count = recycling.shared.queue.length + missed := by
  obtain ⟨noEnqueue, noDequeue⟩ := quiescent
  have counted := uncounted_le recycling.traffic.calls
  have discounted := undiscounted_le recycling.dequeues
  have size := balanced.size
  omega

end

/-- The counter is ahead of the queue by the decrements that found it at zero. -/
theorem count_eq_length_add (moves : List (RecyclingMove α)) (recycling : Recycling α)
    (reached : run step start moves = some recycling) (quiescent : recycling.Quiescent) :
    recycling.shared.count = recycling.shared.queue.length + breaches step Discounts start moves := by
  have balanced := run_breaches Balanced.start (fun balanced taken => balanced.step taken) reached
  rw [Nat.zero_add] at balanced
  exact balanced.quiescent quiescent

/-- Between calls the counter is right exactly if no decrement was left out. -/
theorem count_eq_length_iff (moves : List (RecyclingMove α)) (recycling : Recycling α)
    (reached : run step start moves = some recycling) (quiescent : recycling.Quiescent) :
    recycling.shared.count = recycling.shared.queue.length ↔ Along step Discounts start moves := by
  rw [count_eq_length_add moves recycling reached quiescent, ← breaches_eq_zero_iff, Nat.add_eq_left]

/-- The second element is pushed but not yet counted when the first one is taken. -/
def overlapping : List (RecyclingMove Nat) :=
  [.enqueue 1, .advance 0, .advance 0, .advance 0, .enqueue 2, .advance 1, .advance 1, .tryDequeue, .proceed 0,
    .proceed 0, .proceed 0, .advance 1]

theorem count_eq_length_overlapping :
    ∃ recycling, run step start overlapping = some recycling ∧ recycling.Quiescent ∧
      recycling.shared.count = recycling.shared.queue.length :=
  ⟨_, rfl, ⟨rfl, rfl⟩, (count_eq_length_iff overlapping _ rfl ⟨rfl, rfl⟩).mpr (by decide)⟩

/-- The only element is taken, and its decrement left out, before it is counted. -/
def drifting : List (RecyclingMove Nat) :=
  [.enqueue 1, .advance 0, .advance 0, .tryDequeue, .proceed 0, .proceed 0, .proceed 0, .advance 0]

theorem count_drifts :
    ∃ recycling, run step start drifting = some recycling ∧ recycling.Quiescent ∧
      recycling.shared.queue = [] ∧ recycling.shared.count = 1 :=
  ⟨_, rfl, ⟨rfl, rfl⟩, rfl, rfl⟩

/-- A call that nothing interrupts is `LockedQueue.tryDequeue`. -/
theorem tryDequeue_alone (recycling : Recycling α) :
    ∃ steps after, run step recycling
        (.tryDequeue :: List.replicate steps (.proceed recycling.dequeues.length)) = some after ∧
      after.shared = recycling.shared.tryDequeue.2 ∧
      after.dequeues = recycling.dequeues ++ [.returned recycling.shared.tryDequeue.1] := by
  have set (call next : TryDequeueCall α) :
      (recycling.dequeues ++ [call]).set recycling.dequeues.length next = recycling.dequeues ++ [next] := by simp
  cases aborted : recycling.traffic.shared.aborted with
  | true =>
      refine ⟨1, ?_⟩
      simp [run, step, proceed, put, shared, set, aborted, LockedQueue.tryDequeue]
  | false =>
      have entered (rest : List (RecyclingMove α)) :
          run step recycling (.tryDequeue :: .proceed recycling.dequeues.length :: rest) =
            run step { recycling with dequeues := recycling.dequeues ++ [.popping] } rest := by
        simp [run, step, proceed, put, shared, set, aborted]
      cases shape : recycling.traffic.shared.queue with
      | nil =>
          refine ⟨2, ?_⟩
          rw [List.replicate_succ, entered]
          simp [run, step, proceed, put, shared, set, aborted, shape, LockedQueue.tryDequeue]
      | cons first rest =>
          cases first with
          | none =>
              refine ⟨2, ?_⟩
              rw [List.replicate_succ, entered]
              simp [run, step, proceed, put, shared, set, aborted, shape, LockedQueue.tryDequeue]
          | some item =>
              refine ⟨3, ?_⟩
              rw [List.replicate_succ, entered]
              -- At zero the decrement of `tryDequeue` is one of natural numbers.
              rcases Nat.eq_zero_or_pos recycling.traffic.shared.count with zero | positive
              · simp [run, step, proceed, put, shared, set, aborted, shape, zero, LockedQueue.tryDequeue,
                  List.replicate]
              · simp [run, step, proceed, put, shared, set, aborted, shape, positive, LockedQueue.tryDequeue,
                  List.replicate]

/-- A call begins only when no other one is in progress, as in the thread of the
`io_service`. -/
def Alone (recycling : Recycling α) : RecyclingMove α → Prop
  | .enqueue _ | .tryDequeue => recycling.Quiescent
  | .advance _ | .proceed _ => True

structure Serial (recycling : Recycling α) : Prop where
  balanced : recycling.Balanced 0
  single : recycling.traffic.calls.countP EnqueueCall.inProgress +
    recycling.dequeues.countP TryDequeueCall.inProgress ≤ 1

theorem countP_set_le {β : Type} {calls : List β} {call : Nat} {before : β} (found : calls[call]? = some before)
    {p : β → Bool} (counted : p before = true) (after : β) : (calls.set call after).countP p ≤ calls.countP p := by
  have moved := Traffic.countP_set found p after
  rw [if_pos counted] at moved
  split at moved
  · omega
  · omega

theorem Serial.discounts {recycling : Recycling α} (serial : recycling.Serial) (move : RecyclingMove α) :
    recycling.Discounts move := by
  cases move with
  | enqueue item | advance call | tryDequeue => trivial
  | proceed call =>
      intro undiscounted
      obtain ⟨before, found, holding⟩ : ∃ before, recycling.dequeues[call]? = some before ∧
          before.undiscounted = true := by
        cases found : recycling.dequeues[call]? with
        | none => simp [found] at undiscounted
        | some before => exact ⟨before, rfl, by simpa [found] using undiscounted⟩
      have holds : 0 < recycling.dequeues.countP TryDequeueCall.undiscounted :=
        List.countP_pos_iff.mpr ⟨before, List.mem_of_getElem? found, holding⟩
      have counted := uncounted_le recycling.traffic.calls
      have discounted := undiscounted_le recycling.dequeues
      have size := serial.balanced.size
      have single := serial.single
      omega

theorem Serial.step {recycling next : Recycling α} {move : RecyclingMove α} (serial : recycling.Serial)
    (alone : recycling.Alone move) (taken : recycling.step move = some next) : next.Serial := by
  have balanced := serial.balanced.step taken
  rw [if_pos (serial.discounts move)] at balanced
  refine ⟨balanced, ?_⟩
  have single := serial.single
  cases move with
  | enqueue item =>
      obtain ⟨noEnqueue, noDequeue⟩ := alone
      cases taken
      simp [noEnqueue, noDequeue, EnqueueCall.inProgress]
  | advance call =>
      rw [Recycling.step, Option.map_eq_some_iff] at taken
      obtain ⟨traffic, stepped, rfl⟩ := taken
      refine Nat.le_trans (Nat.add_le_add_right ?_ _) single
      cases Traffic.step_took stepped with
      | refuse found _ | proceed found _ | push found | count found => exact countP_set_le found rfl _
  | tryDequeue =>
      obtain ⟨noEnqueue, noDequeue⟩ := alone
      cases taken
      simp [noEnqueue, noDequeue, TryDequeueCall.inProgress]
  | proceed call =>
      refine Nat.le_trans ?_ single
      cases proceed_proceeded taken with
      | refuse found | enter found | empty found | null found _ | pop found _ | discount found _ | miss found _ =>
          exact Nat.add_le_add_left (countP_set_le found rfl _) _

theorem count_eq_length_of_alone (moves : List (RecyclingMove α)) (recycling : Recycling α)
    (alone : Along step Alone start moves) (reached : run step start moves = some recycling)
    (quiescent : recycling.Quiescent) : recycling.shared.count = recycling.shared.queue.length := by
  have serial : recycling.Serial :=
    run_invariant ⟨Balanced.start, Nat.zero_le 1⟩ (fun serial alone taken => serial.step alone taken) alone reached
  exact serial.balanced.quiescent quiescent

end Recycling

end Webapp.Workers

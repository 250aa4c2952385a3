import Webapp.Data.Words
import Webapp.Workers.Queue

namespace Webapp.Workers

open Webapp.Data

/-! The pools of requests.  `accept_conn` takes a finished request if there is
one, the next request of the current pool otherwise, and makes a new pool when
that one is used up.  All of it runs in the thread of the `io_service`.
-/

namespace LockedQueue

variable {α : Type}

def enqueue (queue : LockedQueue α) (item : Option α) : LockedQueue α :=
  if queue.aborted then queue
  else { queue with queue := queue.queue ++ [item], count := queue.count + 1 }

def tryDequeue (queue : LockedQueue α) : Option α × LockedQueue α :=
  if queue.aborted then (none, queue)
  else
    match queue.queue with
    | [] => (none, queue)
    | none :: rest => (none, { queue with queue := rest })
    | some item :: rest => (some item, { queue with queue := rest, count := queue.count - 1 })

end LockedQueue

theorem Traffic.enqueue_alone {α : Type} (traffic : Traffic α) (item : α)
    (running : traffic.shared.aborted = false) :
    ∃ after, run Traffic.step traffic
        (.enqueue item :: List.replicate 3 (.advance traffic.calls.length)) = some after ∧
      after.shared = traffic.shared.enqueue (some item) := by
  have set (call next : EnqueueCall α) :
      (traffic.calls ++ [call]).set traffic.calls.length next = traffic.calls ++ [next] := by simp
  simp [run, List.replicate, step, advance, set, running, LockedQueue.enqueue]

/-- `request_pool_size` as it comes with `WorkerInit`, an `int`; zero has been
replaced by a default. -/
structure PoolInit where
  requestPoolSize : Nat
  positive : 0 < requestPoolSize
  isInt : requestPoolSize < 2147483648

@[ext]
structure SlotId where
  pool : Nat
  index : Nat
deriving DecidableEq, Repr

structure Pools where
  pools : Nat
  currentPool : Int
  currentRequest : Nat
  finished : LockedQueue SlotId
deriving DecidableEq

namespace Pools

/-- `Worker::accept_conn`: the pools and the slot it accepts into.  `at` throws
for an index that is out of range, as a negative one is. -/
def acceptConn (init : PoolInit) (pools : Pools) : Option (Pools × SlotId) :=
  match pools.finished.tryDequeue with
  | (some slot, finished) => some ({ pools with finished }, slot)
  | (none, finished) =>
      if init.requestPoolSize ≤ pools.currentRequest ∨ pools.currentRequest = 0 then
        some (⟨pools.pools + 1, int32 pools.pools, 1, finished⟩, ⟨pools.pools, 0⟩)
      else if 0 ≤ pools.currentPool ∧ pools.currentPool < pools.pools then
        some ({ pools with currentRequest := pools.currentRequest + 1, finished },
          ⟨pools.currentPool.toNat, pools.currentRequest⟩)
      else none

def start : Pools := ⟨0, 0, 0, ⟨false, 0, []⟩⟩

/-- The slots `accept_conn` has taken from the pools, by its counters. -/
def Taken (init : PoolInit) (pools : Pools) (slot : SlotId) : Prop :=
  slot.index < init.requestPoolSize ∧ slot.pool < pools.pools ∧
    (slot.pool + 1 = pools.pools → slot.index < pools.currentRequest)

/-- What the counters keep.  The index of the current pool is an `int`; it can be
negative only behind the pool at which `accept_conn` stops. -/
structure Sound (init : PoolInit) (pools : Pools) : Prop where
  running : pools.finished.aborted = false
  requests : none ∉ pools.finished.queue
  within : pools.currentRequest ≤ init.requestPoolSize
  first : pools.currentRequest = 0 ↔ pools.pools = 0
  current : pools.pools ≠ 0 → pools.currentPool = int32 (pools.pools - 1)
  bound : 2 ≤ init.requestPoolSize → pools.pools ≤ 2147483649 ∧ (2 ≤ pools.currentRequest → pools.pools ≤ 2147483648)

theorem Sound.start (init : PoolInit) : Pools.start.Sound init where
  running := rfl
  requests := List.not_mem_nil
  within := Nat.zero_le _
  first := by decide
  current nonzero := absurd rfl nonzero
  bound _ := by decide

section

variable {init : PoolInit} {pools next : Pools} {slot : SlotId}

/-- A slot comes from the finished ones, or from a pool: then none was finished
and the slot was never taken before; and if its pool is new, all slots of the
others had been taken. -/
inductive Accepts (init : PoolInit) (pools next : Pools) (slot : SlotId) : Prop
  | finished (head : pools.finished.queue = some slot :: next.finished.queue)
      (counters : ∀ other, next.Taken init other ↔ pools.Taken init other) (pools : next.pools = pools.pools)
  | pooled (empty : pools.finished.queue = []) (still : next.finished.queue = [])
      (untaken : ¬ pools.Taken init slot)
      (counters : ∀ other, next.Taken init other ↔ other = slot ∨ pools.Taken init other)
      (exhausted : next.pools ≠ pools.pools → ∀ other : SlotId, other.pool < pools.pools →
        other.index < init.requestPoolSize → pools.Taken init other)

theorem tryDequeue_cases (sound : pools.Sound init) :
    (pools.finished.queue = [] ∧ pools.finished.tryDequeue = (none, pools.finished)) ∨
      ∃ slot rest, pools.finished.queue = some slot :: rest ∧
        pools.finished.tryDequeue = (some slot, { pools.finished with queue := rest, count := pools.finished.count - 1 }) := by
  simp only [LockedQueue.tryDequeue, sound.running, Bool.false_eq_true, if_false]
  cases shape : pools.finished.queue with
  | nil => exact Or.inl ⟨rfl, rfl⟩
  | cons head rest =>
      cases head with
      | none => exact absurd (shape ▸ List.mem_cons_self) sound.requests
      | some slot => exact Or.inr ⟨slot, rest, rfl, rfl⟩

theorem Sound.enqueue_queue (sound : pools.Sound init) (slot : SlotId) :
    (pools.finished.enqueue (some slot)).queue = pools.finished.queue ++ [some slot] := by
  simp [LockedQueue.enqueue, sound.running]

theorem Sound.enqueue (sound : pools.Sound init) (slot : SlotId) :
    Sound init { pools with finished := pools.finished.enqueue (some slot) } := by
  have running := sound.running
  refine ⟨?_, ?_, sound.within, sound.first, sound.current, sound.bound⟩
  · simp [LockedQueue.enqueue, running]
  · simp [sound.enqueue_queue, sound.requests]

theorem Sound.allocate (sound : pools.Sound init) (empty : pools.finished.queue = [])
    (full : init.requestPoolSize ≤ pools.currentRequest ∨ pools.currentRequest = 0) :
    Sound init ⟨pools.pools + 1, int32 pools.pools, 1, pools.finished⟩ ∧
      Accepts init pools ⟨pools.pools + 1, int32 pools.pools, 1, pools.finished⟩ ⟨pools.pools, 0⟩ := by
  have positive := init.positive
  have within := sound.within
  have first := sound.first
  have exhausted (other : SlotId) (pool : other.pool < pools.pools) (index : other.index < init.requestPoolSize) :
      pools.Taken init other := ⟨index, pool, fun _ => by omega⟩
  refine ⟨⟨sound.running, sound.requests, positive, by simp, fun _ => ?_, fun several => ?_⟩,
    .pooled empty empty ?_ ?_ fun _ => exhausted⟩
  · rw [Nat.cast_add, Nat.cast_one, Int.add_sub_cancel]
  · have bound := sound.bound several
    dsimp only
    omega
  · intro taken
    exact absurd taken.2.1 (Nat.lt_irrefl _)
  · intro other
    constructor
    · intro taken
      obtain ⟨index, pool, last⟩ := taken
      by_cases new : other.pool = pools.pools
      · have zero := last (by rw [new])
        exact Or.inl (SlotId.ext new (Nat.lt_one_iff.mp zero))
      · exact Or.inr (exhausted other (Nat.lt_of_le_of_ne (Nat.le_of_lt_succ pool) new) index)
    · intro taken
      rcases taken with rfl | taken
      · exact ⟨positive, Nat.lt_succ_self _, fun _ => Nat.zero_lt_one⟩
      · obtain ⟨index, pool, _⟩ := taken
        exact ⟨index, Nat.lt_succ_of_lt pool, fun last => absurd (Nat.succ.inj last) (Nat.ne_of_lt pool)⟩

theorem Sound.currentPool_eq (sound : pools.Sound init)
    (room : ¬ (init.requestPoolSize ≤ pools.currentRequest ∨ pools.currentRequest = 0))
    (inRange : 0 ≤ pools.currentPool) :
    pools.currentPool.toNat + 1 = pools.pools ∧ pools.pools ≤ 2147483648 := by
  have within := sound.within
  have first := sound.first
  have bound := sound.bound (by omega)
  have current := sound.current (by omega)
  simp only [int32] at current
  omega

theorem Sound.advance (sound : pools.Sound init) (empty : pools.finished.queue = [])
    (room : ¬ (init.requestPoolSize ≤ pools.currentRequest ∨ pools.currentRequest = 0))
    (inRange : 0 ≤ pools.currentPool) :
    Sound init { pools with currentRequest := pools.currentRequest + 1 } ∧
      Accepts init pools { pools with currentRequest := pools.currentRequest + 1 }
        ⟨pools.currentPool.toNat, pools.currentRequest⟩ := by
  obtain ⟨last, small⟩ := sound.currentPool_eq room inRange
  refine ⟨⟨sound.running, sound.requests, ?_, ?_, sound.current, fun several => ?_⟩,
    .pooled empty empty ?_ ?_ fun changed => absurd rfl changed⟩
  · dsimp only
    omega
  · dsimp only
    omega
  · exact ⟨(sound.bound several).1, fun _ => small⟩
  · intro taken
    exact absurd (taken.2.2 last) (Nat.lt_irrefl _)
  · intro other
    constructor
    · intro taken
      obtain ⟨index, pool, below⟩ := taken
      dsimp only at pool below
      by_cases newest : other.pool + 1 = pools.pools ∧ other.index = pools.currentRequest
      · exact Or.inl (SlotId.ext (by dsimp only; omega) newest.2)
      · exact Or.inr ⟨index, pool, fun same => by
          have := below same
          omega⟩
    · intro taken
      rcases taken with rfl | taken
      · refine ⟨?_, ?_, fun _ => Nat.lt_succ_self _⟩
        · dsimp only
          omega
        · dsimp only
          omega
      · obtain ⟨index, pool, below⟩ := taken
        exact ⟨index, pool, fun same => Nat.lt_succ_of_lt (below same)⟩

theorem Sound.acceptConn (sound : pools.Sound init) (accepted : pools.acceptConn init = some (next, slot)) :
    next.Sound init ∧ Accepts init pools next slot := by
  rw [Pools.acceptConn] at accepted
  rcases tryDequeue_cases sound with ⟨empty, dequeued⟩ | ⟨head, rest, shape, dequeued⟩
  · simp only [dequeued] at accepted
    split at accepted
    · rename_i full
      cases accepted
      exact sound.allocate empty full
    · rename_i room
      split at accepted
      · rename_i inRange
        cases accepted
        exact sound.advance empty room inRange.1
      · contradiction
  · simp only [dequeued, Option.some.injEq, Prod.mk.injEq] at accepted
    obtain ⟨rfl, rfl⟩ := accepted
    obtain ⟨running, requests, within, first, current, bound⟩ := sound
    refine ⟨⟨running, ?_, within, first, current, bound⟩, .finished shape (fun _ => Iff.rfl) rfl⟩
    intro null
    exact requests (shape ▸ List.mem_cons_of_mem _ null)

end

end Pools

structure Lending where
  pools : Pools
  out : List SlotId
  used : List SlotId
deriving DecidableEq

inductive LendingEvent where
  | accept
  | recycle (slot : SlotId)
deriving DecidableEq, Repr

namespace Lending

def start : Lending := ⟨Pools.start, [], []⟩

/-- A slot is recycled by whom it is handed out to, and only once. -/
def step (init : PoolInit) (lending : Lending) : LendingEvent → Option Lending
  | .accept =>
      (lending.pools.acceptConn init).map fun accepted =>
        ⟨accepted.1, accepted.2 :: lending.out, accepted.2 :: lending.used⟩
  | .recycle slot =>
      if slot ∈ lending.out then
        some { lending with
          pools := { lending.pools with finished := lending.pools.finished.enqueue (some slot) }
          out := lending.out.erase slot }
      else none

/-- Finished slots and those handed out are all different, and taken. -/
structure Disjoint (init : PoolInit) (lending : Lending) : Prop where
  sound : lending.pools.Sound init
  used : ∀ slot, slot ∈ lending.used ↔ lending.pools.Taken init slot
  distinct : (lending.pools.finished.queue ++ lending.out.map some).Nodup
  taken : ∀ slot, some slot ∈ lending.pools.finished.queue ++ lending.out.map some → slot ∈ lending.used

theorem Disjoint.start (init : PoolInit) : Lending.start.Disjoint init where
  sound := Pools.Sound.start init
  used slot := by simp [Lending.start, Pools.start, Pools.Taken]
  distinct := List.nodup_nil
  taken slot member := by contradiction

section

variable {init : PoolInit} {lending : Lending} {pools : Pools} {slot : SlotId}

theorem Disjoint.not_out (disjoint : lending.Disjoint init)
    (accepted : lending.pools.acceptConn init = some (pools, slot)) : slot ∉ lending.out := by
  intro out
  cases (disjoint.sound.acceptConn accepted).2 with
  | finished head _ _ =>
      have distinct := disjoint.distinct
      rw [head, List.cons_append, List.nodup_cons] at distinct
      exact distinct.1 (List.mem_append_right _ (List.mem_map_of_mem out))
  | pooled _ _ untaken _ _ =>
      have used := disjoint.taken slot (List.mem_append_right _ (List.mem_map_of_mem out))
      exact untaken ((disjoint.used slot).mp used)

theorem Disjoint.accept (disjoint : lending.Disjoint init)
    (accepted : lending.pools.acceptConn init = some (pools, slot)) :
    Disjoint init ⟨pools, slot :: lending.out, slot :: lending.used⟩ := by
  have fresh := disjoint.not_out accepted
  obtain ⟨sound, accepts⟩ := disjoint.sound.acceptConn accepted
  cases accepts with
  | finished head counters _ =>
      -- The slot moves from one part of the list to the other.
      have moved : (pools.finished.queue ++ (slot :: lending.out).map some).Perm
          (lending.pools.finished.queue ++ lending.out.map some) := by
        rw [head, List.map_cons]
        exact List.perm_middle
      have used : slot ∈ lending.used := disjoint.taken slot (by simp [head])
      refine ⟨sound, fun other => ?_, moved.nodup_iff.mpr disjoint.distinct, fun other member => ?_⟩
      · rw [counters, ← disjoint.used, List.mem_cons]
        constructor
        · intro member
          rcases member with rfl | old
          · exact used
          · exact old
        · exact Or.inr
      · exact List.mem_cons_of_mem _ (disjoint.taken other (moved.mem_iff.mp member))
  | pooled empty still untaken counters _ =>
      have distinct := disjoint.distinct
      have taken := disjoint.taken
      rw [empty, List.nil_append] at distinct taken
      refine ⟨sound, fun other => ?_, ?_, fun other member => ?_⟩
      · rw [counters, ← disjoint.used, List.mem_cons]
      · rw [still, List.nil_append, List.map_cons, List.nodup_cons]
        exact ⟨by simpa using fresh, distinct⟩
      · rw [still, List.nil_append, List.map_cons, List.mem_cons, Option.some.injEq] at member
        rcases member with rfl | old
        · exact List.mem_cons_self
        · exact List.mem_cons_of_mem _ (taken other old)

theorem Disjoint.recycle (disjoint : lending.Disjoint init) (out : slot ∈ lending.out) :
    Disjoint init { lending with
      pools := { lending.pools with finished := lending.pools.finished.enqueue (some slot) }
      out := lending.out.erase slot } := by
  have queue := disjoint.sound.enqueue_queue slot
  have moved : ((lending.pools.finished.queue ++ [some slot]) ++ (lending.out.erase slot).map some).Perm
      (lending.pools.finished.queue ++ lending.out.map some) := by
    rw [List.append_assoc]
    exact ((List.perm_cons_erase out).symm.map some).append_left _
  refine ⟨disjoint.sound.enqueue slot, disjoint.used, ?_, ?_⟩
  · rw [queue]
    exact moved.nodup_iff.mpr disjoint.distinct
  · intro other member
    rw [queue] at member
    exact disjoint.taken other (moved.mem_iff.mp member)

theorem Disjoint.step {next : Lending} {event : LendingEvent} (disjoint : lending.Disjoint init)
    (taken : lending.step init event = some next) : next.Disjoint init := by
  cases event with
  | accept =>
      obtain ⟨⟨pools, slot⟩, accepted, rfl⟩ := Option.map_eq_some_iff.mp taken
      exact disjoint.accept accepted
  | recycle slot =>
      obtain ⟨out, rfl⟩ := guarded_step taken
      exact disjoint.recycle out

end

/-- In every run, `accept_conn` uses a slot of a pool that is not handed out, and
makes a new pool only when all slots have been in use. -/
theorem acceptConn_distinct (init : PoolInit) (events : List LendingEvent) (lending : Lending)
    (reached : run (step init) start events = some lending) (pools : Pools) (slot : SlotId)
    (accepted : lending.pools.acceptConn init = some (pools, slot)) :
    (slot.index < init.requestPoolSize ∧ slot.pool < pools.pools) ∧ slot ∉ lending.out ∧
      (pools.pools ≠ lending.pools.pools → lending.pools.finished.queue = [] ∧
        ∀ other : SlotId, other.pool < lending.pools.pools → other.index < init.requestPoolSize →
          other ∈ lending.used) := by
  have disjoint : lending.Disjoint init :=
    run_preserves (Disjoint.start init) (fun disjoint taken => disjoint.step taken) reached
  have valid := ((disjoint.accept accepted).used slot).mp List.mem_cons_self
  refine ⟨⟨valid.1, valid.2.1⟩, disjoint.not_out accepted, fun new => ?_⟩
  cases (disjoint.sound.acceptConn accepted).2 with
  | finished _ _ same => exact absurd same new
  | pooled empty _ _ _ exhausted =>
      exact ⟨empty, fun other pool index => (disjoint.used other).mpr (exhausted new other pool index)⟩

theorem twoPools_int : 2 < 2147483648 := by decide

def twoPools : PoolInit := ⟨2, Nat.zero_lt_two, twoPools_int⟩

def twoUsed : Lending :=
  ⟨⟨1, 0, 2, ⟨false, 0, []⟩⟩, [⟨0, 0⟩, ⟨0, 1⟩], [⟨0, 0⟩, ⟨0, 1⟩, ⟨0, 0⟩]⟩

theorem acceptConn_distinct_twoUsed :
    run (step twoPools) start [.accept, .accept, .recycle ⟨0, 0⟩, .accept] = some twoUsed ∧
      twoUsed.pools.acceptConn twoPools = some (⟨2, 1, 1, ⟨false, 0, []⟩⟩, ⟨1, 0⟩) ∧ ⟨1, 0⟩ ∉ twoUsed.out := by
  have reached : run (step twoPools) start [.accept, .accept, .recycle ⟨0, 0⟩, .accept] = some twoUsed := by
    decide +kernel
  have accepted : twoUsed.pools.acceptConn twoPools = some (⟨2, 1, 1, ⟨false, 0, []⟩⟩, ⟨1, 0⟩) := by
    decide +kernel
  exact ⟨reached, accepted, (acceptConn_distinct twoPools _ twoUsed reached _ ⟨1, 0⟩ accepted).2.1⟩

end Lending

end Webapp.Workers

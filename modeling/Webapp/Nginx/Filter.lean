import Webapp.Data.Runs
import Webapp.Nginx.ProcessHeader

namespace Webapp.Nginx

open Webapp.Data Webapp.MsgPack

/-! The body of a response: `ngx_http_webapp_filter_init`, the calls of
`ngx_http_webapp_filter`, and the writes of
`ngx_http_upstream_process_non_buffered_request` between them.
-/

/-- `length` is `u->length`, `last` the distance of `u->buffer.last` from the start
of the buffer, `outBufs` the ends of the buffers in `u->out_bufs`.  `sent` counts
the bytes of those that were passed on before. -/
structure Body where
  contentLengthN : Int
  length : Int
  last : Nat
  outBufs : List (Nat × Nat)
  sent : Nat
deriving DecidableEq, Repr

inductive BodyEvent where
  /-- `upstream->recv` returned so many bytes; `freeBuf` is whether there is a
  buffer to chain. -/
  | received (bytes : Nat) (freeBuf : Bool)
  /-- The chain was passed on, and with no buffer left busy the space is used again. -/
  | written (drained : Bool)
deriving DecidableEq, Repr

namespace Body

/-- `ngx_http_webapp_filter_init`; `ngx_http_upstream_send_response` takes back
what was read behind the header before it delivers it. -/
def filterInit (u : Upstream) : Body where
  contentLengthN := u.contentLengthN
  length := if u.statusN ≠ 404 then u.contentLengthN else 0
  last := u.pos
  outBufs := []
  sent := 0

/-- `ngx_http_webapp_filter`; `none` is `NGX_ERROR`, which ends the request. -/
def filter (body : Body) (bytes : Nat) (freeBuf : Bool) : Option Body :=
  if freeBuf then
    some { body with
      outBufs := body.outBufs ++ [(body.last, body.last + bytes)]
      last := body.last + bytes
      length := if body.length = -1 then body.length else int64 (body.length - bytes) }
  else none

def size (bufs : List (Nat × Nat)) : Nat := (bufs.map fun buf => buf.2 - buf.1).sum

def write (body : Body) (drained : Bool) : Body :=
  { body with
    outBufs := []
    sent := body.sent + size body.outBufs
    last := if drained then 0 else body.last }

def step (body : Body) : BodyEvent → Option Body
  | .received bytes freeBuf => body.filter bytes freeBuf
  | .written drained => some (body.write drained)

def chained (body : Body) : Nat := body.sent + size body.outBufs

/-- The counter says what is missing, and no more is chained than was announced. -/
structure Exact (body : Body) : Prop where
  within : (body.chained : Int) ≤ body.contentLengthN
  remaining : body.length = body.contentLengthN - body.chained
  nonnegative : 0 ≤ body.length
  complete : body.length = 0 ↔ (body.chained : Int) = body.contentLengthN

def Announced (body : Body) : BodyEvent → Prop
  | .received bytes _ => (bytes : Int) ≤ body.length
  | .written _ => True

instance (body : Body) (event : BodyEvent) : Decidable (body.Announced event) :=
  match event with
  | .received bytes _ => inferInstanceAs (Decidable ((bytes : Int) ≤ body.length))
  | .written _ => .isTrue trivial

theorem filter_chained {body next : Body} {bytes : Nat} {freeBuf : Bool}
    (filtered : body.filter bytes freeBuf = some next) :
    next.contentLengthN = body.contentLengthN ∧ next.chained = body.chained + bytes ∧
      next.length = if body.length = -1 then body.length else int64 (body.length - bytes) := by
  obtain ⟨_, rfl⟩ := guarded_step filtered
  refine ⟨rfl, ?_, rfl⟩
  simp only [chained, size, List.map_append, List.sum_append, List.map_singleton, List.sum_singleton]
  omega

theorem write_chained (body : Body) (drained : Bool) : (body.write drained).chained = body.chained := by
  simp [write, chained, size]

theorem Exact.of_remaining {body : Body} (remaining : body.length = body.contentLengthN - body.chained)
    (within : (body.chained : Int) ≤ body.contentLengthN) : body.Exact := by
  refine ⟨within, remaining, ?_, ?_⟩ <;> omega

def Bounded (body : Body) : Prop := 0 ≤ body.contentLengthN ∧ body.contentLengthN < 4294967296

theorem step_bounded {body next : Body} {event : BodyEvent} (bounded : body.Bounded)
    (taken : body.step event = some next) : next.Bounded := by
  cases event with
  | received bytes freeBuf =>
      rw [Bounded, (filter_chained taken).1]
      exact bounded
  | written drained =>
      cases taken
      exact bounded

theorem step_exact_iff {body next : Body} {event : BodyEvent} (bounded : body.Bounded) (exact : body.Exact)
    (taken : body.step event = some next) : next.Exact ↔ body.Announced event := by
  cases event with
  | received bytes freeBuf =>
      obtain ⟨announced, chained, length⟩ := filter_chained taken
      have counted : body.length ≠ -1 := by
        have nonnegative := exact.nonnegative
        omega
      rw [if_neg counted] at length
      have remaining := exact.remaining
      have limit := bounded.2
      constructor
      · intro next
        have within := next.within
        rw [announced, chained] at within
        rw [Announced]
        omega
      · intro allowed
        have allowed : (bytes : Int) ≤ body.length := allowed
        have kept : int64 (body.length - bytes) = body.length - bytes := by
          simp only [int64]
          omega
        rw [kept] at length
        apply Exact.of_remaining
        · rw [announced, chained, length]
          omega
        · rw [announced, chained]
          omega
  | written drained =>
      cases taken
      refine iff_of_true ?_ trivial
      apply Exact.of_remaining
      · rw [write_chained]
        exact exact.remaining
      · rw [write_chained]
        exact exact.within

end Body

theorem processHeader_announces {u : Upstream} {surroundings : Surroundings}
    (ok : (u.processHeader surroundings).2 = .ok) :
    (u.processHeader surroundings).1.statusN = 200 ∧
      ∃ value : Nat, (u.processHeader surroundings).1.contentLengthN = uint32 value := by
  rw [Upstream.processHeader_ok ok]
  exact ⟨rfl, _, rfl⟩

theorem Body.filterInit_exact {u : Upstream} {surroundings : Surroundings}
    (ok : (u.processHeader surroundings).2 = .ok) :
    (Body.filterInit (u.processHeader surroundings).1).Bounded ∧
      (Body.filterInit (u.processHeader surroundings).1).Exact := by
  obtain ⟨status, value, announced⟩ := processHeader_announces ok
  have range : uint32 (value : Int) < 4294967296 := by
    simp only [uint32]
    omega
  have found : (Body.filterInit (u.processHeader surroundings).1).contentLengthN = uint32 value := announced
  have known : (Body.filterInit (u.processHeader surroundings).1).length = uint32 value := by
    simp only [Body.filterInit, status, announced]
    rfl
  have nothing : (Body.filterInit (u.processHeader surroundings).1).chained = 0 := rfl
  refine ⟨⟨by omega, by omega⟩, Body.Exact.of_remaining ?_ ?_⟩ <;> omega

/-- The counter is exact in every state of a run exactly when no call of the filter
gets more bytes than are missing. -/
theorem filter_exact_iff (u : Upstream) (surroundings : Surroundings)
    (ok : (u.processHeader surroundings).2 = .ok) (events : List BodyEvent) :
    Always Body.step Body.Exact (Body.filterInit (u.processHeader surroundings).1) events ↔
      Along Body.step Body.Announced (Body.filterInit (u.processHeader surroundings).1) events := by
  obtain ⟨bounded, exact⟩ := Body.filterInit_exact ok
  exact always_iff_along_within bounded exact Body.step_bounded Body.step_exact_iff

def Upstream.fiveBytes : Upstream := { Upstream.fresh with received := [0x04, 0x05, 0x00, 0xa0, 0xa0] }

theorem filter_exact_whole :
    Always Body.step Body.Exact (Body.filterInit (Upstream.fiveBytes.processHeader ⟨[], true⟩).1)
      [.received 2 true, .written true, .received 3 true] :=
  (filter_exact_iff Upstream.fiveBytes ⟨[], true⟩ (by decide)
    [.received 2 true, .written true, .received 3 true]).mpr (by decide)

/-- Six bytes for five: all six are chained, the counter is -1 and stays there. -/
theorem filter_overrun :
    (run Body.step (Body.filterInit (Upstream.fiveBytes.processHeader ⟨[], true⟩).1)
        [.received 6 true]).map (fun body => (body.contentLengthN, body.chained, body.length)) =
      some (5, 6, -1) ∧
    (run Body.step (Body.filterInit (Upstream.fiveBytes.processHeader ⟨[], true⟩).1)
        [.received 6 true, .written true, .received 7 true]).map
          (fun body => (body.contentLengthN, body.chained, body.length)) =
      some (5, 13, -1) := by
  decide

end Webapp.Nginx

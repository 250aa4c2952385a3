import Webapp.Data.Owners
import Webapp.Scripts.Cache

namespace Webapp.Scripts

open Webapp.Data Webapp.Strings

section Dump

variable {base heap : Heap (List UInt8)} {dest : WebappStr} {text : List UInt8}

theorem release_next {after : Heap (List UInt8)} (released : dest.release heap = some after) :
    after.next = heap.next := by
  rw [WebappStr.release] at released
  split at released
  · split at released
    · exact Heap.put_next released
    · cases released
      rfl
  · cases released
    rfl

/-- What `lua_dump` has written so far; otherwise the heap is as before. -/
structure Written (base heap : Heap (List UInt8)) (dest : WebappStr) (text : List UInt8) : Prop where
  later : base.next ≤ heap.next
  place : (text = [] ∧ dest = ⟨none, 0, false⟩ ∧ heap.blocks = base.blocks) ∨
    ∃ address, base.next ≤ address ∧ dest = ⟨some address, text.length, true⟩ ∧
      heap.blocks = Function.update base.blocks address (some text)

theorem Written.chars (written : Written base heap dest text) :
    dest.chars heap = some text ∧ dest.len = text.length := by
  rcases written.place with ⟨rfl, rfl, _⟩ | ⟨address, _, rfl, blocks⟩
  · exact ⟨rfl, rfl⟩
  · exact ⟨WebappStr.chars_begins (by rw [blocks, Function.update_self]) List.prefix_rfl, rfl⟩

/-- The next block has the text so far and what follows, and takes the place of the old one. -/
theorem Written.replaced (written : Written base heap dest text) (more : List UInt8) :
    ∃ after, dest.release (heap.allocate more) = some after ∧ Written base after ⟨some heap.next, more.length, true⟩ more := by
  have live : ∀ address, dest.allocated = true → dest.data = some address →
      ∃ block, (heap.allocate more).blocks address = some block := by
    intro address allocated data
    rcases written.place with ⟨_, rfl, _⟩ | ⟨place, _, rfl, blocks⟩
    · cases allocated
    · cases data
      exact ⟨text, Heap.allocate_found (by rw [blocks, Function.update_self])⟩
  obtain ⟨after, released, blocks⟩ := WebappStr.release_spec live
  have next : after.next = heap.next + 1 := release_next released
  refine ⟨after, released, by rw [next]; exact Nat.le_succ_of_le written.later, Or.inr ⟨heap.next, written.later, rfl, ?_⟩⟩
  funext address
  rw [blocks address]
  by_cases new : address = heap.next
  · rw [new, Function.update_self, Heap.allocate_next, if_neg ?_]
    rcases written.place with ⟨_, rfl, _⟩ | ⟨place, _, rfl, before⟩
    · simp
    · have found : heap.blocks place = some text := by rw [before, Function.update_self]
      have apart : place ≠ heap.next := Heap.ne_next found
      simpa using apart
  · rw [Function.update_of_ne new, Heap.allocate_other heap more new]
    rcases written.place with ⟨_, rfl, before⟩ | ⟨place, fresh, rfl, before⟩
    · rw [if_neg (by simp), before]
    · rw [before]
      by_cases old : address = place
      · rw [if_pos (by simp [old]), old, base.fresh place fresh]
      · rw [if_neg (by simpa using Ne.symm old), Function.update_of_ne old]

theorem Written.luaWriter (written : Written base heap dest text) (chunk : List UInt8)
    (short : (text ++ chunk).length < 2147483648) :
    ∃ after, luaWriter (heap, dest) chunk = some after ∧ Written base after.1 after.2 (text ++ chunk) := by
  obtain ⟨chars, len⟩ := written.chars
  rw [List.length_append] at short
  have size : int32 chunk.length = chunk.length := int32_of_small (by omega)
  rw [Scripts.luaWriter]
  simp only [size]
  by_cases empty : chunk = []
  · subst empty
    exact ⟨(heap, dest), by simp, by simpa using written⟩
  · have positive : (0 : Int) < chunk.length := by
      have := List.length_pos_iff.mpr empty
      omega
    have newlen : int32 (dest.len + chunk.length) = (text ++ chunk).length := by
      rw [len, List.length_append]
      exact int32_of_small (by omega)
    obtain ⟨after, released, now⟩ := written.replaced (text ++ chunk)
    refine ⟨(after, ⟨some heap.next, (text ++ chunk).length, true⟩), ?_, now⟩
    simp only [if_pos positive, newlen, chars, Option.bind_eq_bind, Option.bind_some, released]
    rw [if_pos (Int.natCast_nonneg _)]

theorem Written.dump (written : Written base heap dest text) (chunks : List (List UInt8))
    (short : (text ++ chunks.flatten).length < 2147483648) :
    ∃ after, chunks.foldlM Scripts.luaWriter (heap, dest) = some after ∧
      Written base after.1 after.2 (text ++ chunks.flatten) := by
  induction chunks generalizing heap dest text with
  | nil => exact ⟨(heap, dest), rfl, by simpa using written⟩
  | cons chunk chunks ih =>
      rw [List.flatten_cons, ← List.append_assoc] at short ⊢
      obtain ⟨middle, wrote, now⟩ := written.luaWriter chunk (by rw [List.length_append] at short; omega)
      obtain ⟨after, rest, last⟩ := ih now short
      exact ⟨after, by rw [List.foldlM_cons, wrote]; exact rest, last⟩

/-- A script that compiles gets a string with all of its bytecode. -/
theorem Bytecode.dumped (code : Bytecode) (heap : Heap (List UInt8)) :
    ∃ after address, code.chunks.foldlM Scripts.luaWriter (heap, ⟨none, 0, false⟩) =
        some (after, ⟨some address, code.chunks.flatten.length, true⟩) ∧ heap.next ≤ address ∧ heap.next ≤ after.next ∧
      after.blocks = Function.update heap.blocks address (some code.chunks.flatten) := by
  have nothing : Written heap heap ⟨none, 0, false⟩ [] := ⟨Nat.le_refl _, Or.inl ⟨rfl, rfl, rfl⟩⟩
  obtain ⟨⟨after, dest⟩, wrote, written⟩ := nothing.dump code.chunks (by simpa using code.short)
  rw [List.nil_append] at written
  rcases written.place with ⟨empty, _⟩ | ⟨address, fresh, rfl, blocks⟩
  · exact absurd empty code.nonempty
  · exact ⟨after, address, wrote, fresh, written.later, blocks⟩

end Dump

/-- What `CompileScript` does, under the lock. -/
inductive Compiles (app : App) (file : String) : App → Bool → Prop
  | found (cached : app.scripts file ≠ none) : Compiles app file app true
  | failed (missing : app.scripts file = none) : Compiles app file app false
  | emplaced {code : Bytecode} {heap : Heap (List UInt8)} {address : Nat} (missing : app.scripts file = none)
      (fresh : app.heap.next ≤ address) (later : app.heap.next ≤ heap.next)
      (blocks : heap.blocks = Function.update app.heap.blocks address (some code.chunks.flatten)) :
      Compiles app file (app.emplace file code (heap, ⟨some address, code.chunks.flatten.length, true⟩)) true

theorem compileScript_compiles (app : App) (file : String) :
    ∃ next found, app.compileScript file = some (next, found) ∧ Compiles app file next found := by
  rw [App.compileScript]
  cases cached : app.scripts file with
  | some entry => exact ⟨app, true, rfl, .found (by simp [cached])⟩
  | none =>
      cases source : app.files file with
      | none => exact ⟨app, false, rfl, .failed cached⟩
      | some code =>
          obtain ⟨after, address, dumped, fresh, later, blocks⟩ := code.dumped app.heap
          exact ⟨_, true, by simp only [dumped, Option.map_some], .emplaced cached fresh later blocks⟩

namespace Stage

/-- The order of the stages. -/
def rank : Stage → Nat
  | created => 0
  | compileInit => 1
  | compileScript => 2
  | find own => if own then 13 else 3
  | load own => if own then 14 else 4
  | read own _ _ => if own then 15 else 5
  | running own => if own then 16 else 6
  | newBlock => 7
  | readOld _ => 8
  | deleteOld _ _ => 9
  | storeData _ => 10
  | storeLen => 11
  | storeAllocated => 12
  | finished => 17

/-- The new block of an assignment that is not yet stored. -/
def block : Stage → Option Nat
  | readOld r | deleteOld r _ | storeData r => some r
  | _ => none

end Stage

namespace App

def has (app : App) (file : String) : Prop := file ∈ app.compiled.map Prod.fst

/-- The main thread is done with `Cleanup` before other workers start, and where a
script was found it stays. -/
structure Control (app : App) : Prop where
  once : (app.compiled.map Prod.fst).Nodup
  nonempty : ∀ file code, (file, code) ∈ app.compiled → code ≠ []
  first : ∀ i, i ≠ 0 → app.stage i ≠ .created → app.stage 0 = .finished
  main : 1 ≤ (app.stage 0).rank ∧ ((app.stage 0).rank ≤ 12 ∨ app.stage 0 = .finished)
  found : ∀ i, 2 ≤ (app.stage i).rank → (app.stage i).rank ≤ 12 → app.has "init.lua"
  others : 1 < app.workers.length → app.has "init.lua"
  present : 0 < app.workers.length
  absent : ∀ i, app.workers.length ≤ i → app.stage i = .created
  own : ∀ i init, app.workers[i]? = some init → app.stage i = .load true → app.has init.script

variable {app : App} {i : Nat} {dest : Stage}

@[simp] theorem goto_self (app : App) (i : Nat) (dest : Stage) : (app.goto i dest).stage i = dest := Function.update_self ..

@[simp] theorem goto_heap (app : App) (i : Nat) (dest : Stage) : (app.goto i dest).heap = app.heap := rfl

theorem goto_other (app : App) {i j : Nat} (dest : Stage) (other : j ≠ i) : (app.goto i dest).stage j = app.stage j :=
  Function.update_of_ne other ..

theorem goto_cases (app : App) (i : Nat) (dest : Stage) (j : Nat) :
    (j = i ∧ (app.goto i dest).stage j = dest) ∨ (j ≠ i ∧ (app.goto i dest).stage j = app.stage j) := by
  by_cases same : j = i
  · exact Or.inl ⟨same, by rw [same, goto_self]⟩
  · exact Or.inr ⟨same, goto_other app dest same⟩

@[simp] theorem emplace_self (app : App) (file : String) (code : Bytecode) (memory : Heap (List UInt8) × WebappStr) :
    (app.emplace file code memory).scripts file = some memory.2 := Function.update_self ..

theorem emplace_other (app : App) {file name : String} (code : Bytecode) (memory : Heap (List UInt8) × WebappStr)
    (other : name ≠ file) : (app.emplace file code memory).scripts name = app.scripts name := Function.update_of_ne other ..

theorem Control.begin (files : String → Option Bytecode) (heap : Heap (List UInt8)) : (App.begin files heap).Control := by
  have elsewhere {i : Nat} (other : i ≠ 0) : (App.begin files heap).stage i = .created := by
    simp [App.begin, other]
  have main : (App.begin files heap).stage 0 = .compileInit := by simp [App.begin]
  refine ⟨List.nodup_nil, by simp [App.begin], fun i other started => absurd (elsewhere other) started,
    by simp [main, Stage.rank], ?_, by simp [App.begin], by simp [App.begin], ?_, ?_⟩
  · intro i after before
    by_cases first : i = 0
    · rw [first, main] at after
      simp [Stage.rank] at after
    · rw [elsewhere first] at after
      simp [Stage.rank] at after
  · intro i beyond
    exact elsewhere (by simp [App.begin] at beyond; omega)
  · intro i init _ loading
    by_cases first : i = 0
    · rw [first, main] at loading
      cases loading
    · rw [elsewhere first] at loading
      cases loading

theorem Control.goto (control : app.Control) (known : i < app.workers.length) (active : app.stage i ≠ .finished)
    (alone : i ≠ 0 → app.stage 0 = .finished) (started : 1 ≤ dest.rank) (ends : i = 0 → dest.rank ≤ 12 ∨ dest = .finished)
    (found : 2 ≤ dest.rank → dest.rank ≤ 12 → app.has "init.lua")
    (own : ∀ init, app.workers[i]? = some init → dest = .load true → app.has init.script) : (app.goto i dest).Control := by
  have stage := goto_cases app i dest
  refine ⟨control.once, control.nonempty, ?_, ?_, ?_, control.others, control.present, ?_, ?_⟩
  · intro j other begun
    have finished : app.stage 0 = .finished := by
      rcases stage j with ⟨rfl, _⟩ | ⟨_, same⟩
      · exact alone other
      · exact control.first j other (by rwa [same] at begun)
    rw [goto_other app dest ?_, finished]
    intro mine
    exact active (mine ▸ finished)
  · rcases stage 0 with ⟨mine, now⟩ | ⟨_, same⟩
    · rw [now]
      exact ⟨started, ends mine.symm⟩
    · rw [same]
      exact control.main
  · intro j after before
    rcases stage j with ⟨_, now⟩ | ⟨_, same⟩
    · rw [now] at after before
      exact found after before
    · rw [same] at after before
      exact control.found j after before
  · intro j beyond
    rw [goto_other app dest ?_]
    · exact control.absent j beyond
    · intro same
      exact absurd known (by rw [← same]; exact Nat.not_lt.mpr beyond)
  · intro j init worker loading
    rcases stage j with ⟨rfl, now⟩ | ⟨_, same⟩
    · rw [now] at loading
      exact own init worker loading
    · rw [same] at loading
      exact control.own j init worker loading

theorem Control.emplace (control : app.Control) {file : String} {code : Bytecode} (memory : Heap (List UInt8) × WebappStr)
    (missing : ¬app.has file) : (app.emplace file code memory).Control := by
  have kept {name : String} (before : app.has name) : (app.emplace file code memory).has name := by
    rw [has, App.emplace, List.map_append]
    exact List.mem_append_left _ before
  refine ⟨?_, ?_, control.first, control.main, fun j after before => kept (control.found j after before),
    fun several => kept (control.others several), control.present, control.absent,
    fun j init worker loading => kept (control.own j init worker loading)⟩
  · rw [App.emplace, List.map_append]
    refine List.nodup_append.mpr ⟨control.once, List.nodup_singleton _, ?_⟩
    intro name before other now same
    simp only [List.map_cons, List.map_nil, List.mem_singleton] at now
    exact missing (by rw [has, ← now, ← same]; exact before)
  · intro name text entry
    rcases List.mem_append.mp entry with before | now
    · exact control.nonempty name text before
    · simp only [List.mem_singleton, Prod.mk.injEq] at now
      rw [now.2]
      exact code.nonempty

theorem Control.create (control : app.Control) (init : WorkerInit) (running : app.stage 0 = .running false) :
    ({ app with workers := app.workers ++ [init] } : App).Control := by
  have found : app.has "init.lua" := control.found 0 (by simp [running, Stage.rank]) (by simp [running, Stage.rank])
  refine ⟨control.once, control.nonempty, control.first, control.main, control.found, fun _ => found, by simp, ?_, ?_⟩
  · intro i beyond
    exact control.absent i (by simp at beyond; omega)
  · intro i other worker loading
    rcases Nat.lt_or_ge i app.workers.length with known | beyond
    · exact control.own i other (by rwa [List.getElem?_append_left known] at worker) loading
    · rw [control.absent i beyond] at loading
      cases loading

end App

end Webapp.Scripts

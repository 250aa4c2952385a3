import Webapp.Scripts.Memory

namespace Webapp.Scripts

open Webapp.Data Webapp.Strings

namespace App

variable {app mid next : App} {clearing : Option Nat} {i : Nat} {dest : Stage} {init : WorkerInit} {file : String}

structure Sound (app : App) : Prop where
  control : app.Control
  memory : ∃ clearing, app.Memory clearing

/-- Blocks and scripts were added, and entries may have changed. -/
structure Grows (app next : App) : Prop where
  workers : next.workers = app.workers
  stage : next.stage = app.stage
  loaded : next.loaded = app.loaded
  ended : next.ended = app.ended
  listed : ∀ entry ∈ app.compiled, entry ∈ next.compiled
  later : app.heap.next ≤ next.heap.next
  kept : ∀ address, address < app.heap.next → next.heap.blocks address = app.heap.blocks address

theorem Grows.refl (app : App) : app.Grows app :=
  ⟨rfl, rfl, rfl, rfl, fun _ listed => listed, Nat.le_refl _, fun _ _ => rfl⟩

theorem Grows.withEntry (app : App) (entry : WebappStr) : app.Grows (app.withEntry entry) :=
  ⟨rfl, rfl, rfl, rfl, fun _ listed => listed, Nat.le_refl _, fun _ _ => rfl⟩

theorem Grows.allocate (app : App) (block : List UInt8) : app.Grows { app with heap := app.heap.allocate block } :=
  ⟨rfl, rfl, rfl, rfl, fun _ listed => listed, Nat.le_succ _,
    fun _ bounded => Heap.allocate_other _ _ (Nat.ne_of_lt bounded)⟩

/-- What one step of a thread does, unless it deletes a block that is gone. -/
structure Effect (app : App) (i : Nat) (next : App) : Prop where
  ended : next.ended = none
  workers : next.workers = app.workers
  others : ∀ j, j ≠ i → next.stage j = app.stage j
  rank : (app.stage i).rank < (next.stage i).rank
  listed : ∀ entry ∈ app.compiled, entry ∈ next.compiled
  later : app.heap.next ≤ next.heap.next
  gone : ∀ address, address < app.heap.next → app.heap.blocks address = none → next.heap.blocks address = none
  deleted : ∀ address, app.heap.blocks address ≠ none → next.heap.blocks address = none →
    ∃ r, app.stage i = .deleteOld r (some address)
  captured : ∀ r old, next.stage i = .deleteOld r old → app.stage i = .readOld r ∧
    ∃ entry, app.scripts "init.lua" = some entry ∧ old = entry.data
  cleared : ∀ r, next.stage i = .storeData r → ∃ address, app.stage i = .deleteOld r (some address) ∧
    next.heap.blocks address = none
  freed : ∀ r address, app.stage i = .deleteOld r (some address) → app.heap.blocks address ≠ none ∧
    next.heap.blocks address = none
  loads : next.loaded = app.loaded ∧ (∀ own, next.stage i ≠ .running own) ∨
    ∃ own data len code init, app.stage i = .read own data len ∧ next.stage i = .running own ∧
      WebappStr.chars app.heap ⟨data, len, false⟩ = some code ∧ app.workers[i]? = some init ∧
      next.loaded = app.loaded ++ [⟨i, own, init.file own, code⟩]

theorem Grows.effect (grows : app.Grows mid) (running : app.ended = none) (rank : (app.stage i).rank < dest.rank)
    (captured : ∀ r old, dest = .deleteOld r old → app.stage i = .readOld r ∧
      ∃ entry, app.scripts "init.lua" = some entry ∧ old = entry.data)
    (idle : ∀ r old, app.stage i ≠ .deleteOld r old) (storing : ∀ r, dest ≠ .storeData r)
    (quiet : ∀ own, dest ≠ .running own) : app.Effect i (mid.goto i dest) := by
  refine ⟨grows.ended.trans running, grows.workers, ?_, by rwa [goto_self], grows.listed, grows.later, ?_, ?_, ?_, ?_,
    fun r address deleting => absurd deleting (idle r _), ?_⟩
  · intro j other
    rw [goto_other mid dest other, grows.stage]
  · intro address bounded missing
    exact (grows.kept address bounded).trans missing
  · intro address there missing
    obtain ⟨block, found⟩ := Option.ne_none_iff_exists'.mp there
    have kept := grows.kept address (Heap.bounded found)
    exact absurd (kept.symm.trans missing) there
  · intro r old deleting
    rw [goto_self] at deleting
    exact captured r old deleting
  · intro r now
    rw [goto_self] at now
    exact absurd now (storing r)
  · refine Or.inl ⟨grows.loaded, ?_⟩
    intro own now
    rw [goto_self] at now
    exact quiet own now

/-- The entry of `init.lua` is made before the main thread has emptied it. -/
theorem Control.early (control : app.Control) (memory : app.Memory clearing) (known : i < app.workers.length)
    (active : app.stage i ≠ .finished) (missing : app.scripts "init.lua" = none) :
    (app.stage 0).rank ≤ 9 ∧ clearing = none := by
  have unlisted : ¬app.has "init.lua" := by
    rw [← memory.keys]
    simpa using missing
  have alone : i = 0 := by
    by_contra other
    exact unlisted (control.others (by omega))
  rw [alone] at active
  refine ⟨?_, ?_⟩
  · rcases control.main.2 with low | finished
    · by_contra high
      exact unlisted (control.found 0 (by omega) low)
    · exact absurd finished active
  · cases busy : clearing with
    | none => rfl
    | some j =>
        obtain ⟨r, storing⟩ := (memory.clears j).mpr busy
        exact absurd (control.found j (by simp [storing, Stage.rank]) (by simp [storing, Stage.rank])) unlisted

/-- `CompileScript` adds an entry or none. -/
theorem compiles_sound {found : Bool} (compiles : Compiles app file next found) (control : app.Control)
    (memory : app.Memory clearing) (known : i < app.workers.length) (active : app.stage i ≠ .finished) :
    next.Control ∧ next.Memory clearing ∧ app.Grows next ∧ (found = true → next.has file) ∧
      (found = false → next = app ∧ app.scripts file = none) := by
  cases compiles with
  | found cached => exact ⟨control, memory, Grows.refl app, fun _ => (memory.keys file).mp cached, by simp⟩
  | failed missing => exact ⟨control, memory, Grows.refl app, by simp, fun _ => ⟨rfl, missing⟩⟩
  | emplaced missing fresh later blocks =>
      have unlisted : ¬app.has file := by
        rw [← memory.keys]
        simpa using missing
      have early (init : file = "init.lua") := control.early memory known active (init ▸ missing)
      refine ⟨control.emplace _ unlisted, memory.emplace missing fresh later blocks early, ?_, ?_, by simp⟩
      · refine ⟨rfl, rfl, rfl, rfl, fun entry listed => List.mem_append_left _ listed, later, ?_⟩
        intro address bounded
        rw [App.emplace, blocks, Function.update_of_ne (by omega)]
      · intro _
        simp [has, App.emplace]

theorem Control.withEntry (control : app.Control) (entry : WebappStr) : (app.withEntry entry).Control := { control with }

theorem Control.withHeap (control : app.Control) (heap : Heap (List UInt8)) : ({ app with heap := heap } : App).Control :=
  { control with }

theorem Control.logged (control : app.Control) (loaded : List Load) : ({ app with loaded := loaded } : App).Control :=
  { control with }

theorem Memory.logged (memory : app.Memory clearing) (loaded : List Load) :
    ({ app with loaded := loaded } : App).Memory clearing :=
  { memory with }

/-- A script can be read where `RunScript` has found it; of `init.lua` only the main
thread gets something. -/
theorem Sound.reads (control : app.Control) (memory : app.Memory clearing) {own : Bool} {data : Option Nat} {len : Int}
    (worker : app.workers[i]? = some init) (reading : app.stage i = .read own data len) :
    ∃ code, WebappStr.chars app.heap ⟨data, len, false⟩ = some code ∧
      if init.file own = "init.lua" ∧ i ≠ 0 then code = [] else (init.file own, code) ∈ app.compiled := by
  have reads := memory.reads i init own data len worker reading
  by_cases emptied : init.file own = "init.lua" ∧ i ≠ 0
  · rw [if_pos emptied] at reads
    exact ⟨[], by simp [WebappStr.chars, reads], by rw [if_pos emptied]⟩
  · rw [if_neg emptied] at reads
    obtain ⟨entry, listed, file⟩ := List.mem_map.mp ((memory.keys (init.file own)).mp (by simp [reads]))
    have early : init.file own ≠ "init.lua" ∨ (app.stage 0).rank ≤ 9 := by
      by_cases other : init.file own = "init.lua"
      · have main : i = 0 := by
          by_contra elsewhere
          exact emptied ⟨other, elsewhere⟩
        have low := control.main.2
        rw [main] at reading
        rw [reading] at low ⊢
        cases own with
        | true => simp [Stage.rank] at low
        | false => exact Or.inr (by simp [Stage.rank])
      · exact Or.inl other
    obtain ⟨name, code⟩ := entry
    have file : name = init.file own := file
    rw [file] at listed
    obtain ⟨address, has, content⟩ := memory.texts _ code listed early
    rw [reads] at has
    cases has
    exact ⟨code, WebappStr.chars_begins content List.prefix_rfl, by rw [if_neg emptied]; exact listed⟩

/-- A thread that can go on. -/
structure Active (app : App) (i : Nat) (init : WorkerInit) : Prop where
  worker : app.workers[i]? = some init
  running : app.ended = none
  created : app.stage i ≠ .created
  finished : app.stage i ≠ .finished

theorem Active.known (active : app.Active i init) : i < app.workers.length :=
  (List.getElem?_eq_some_iff.mp active.worker).1

theorem Active.alone (active : app.Active i init) (control : app.Control) (other : i ≠ 0) : app.stage 0 = .finished :=
  control.first i other active.created

/-- The main thread does not run a script of its own. -/
theorem Active.main (active : app.Active i init) (control : app.Control) (main : i = 0) : (app.stage i).rank ≤ 12 := by
  rcases control.main.2 with low | ended
  · rwa [main]
  · exact absurd (main ▸ ended) active.finished

theorem Active.other (active : app.Active i init) (control : app.Control) (own : 13 ≤ (app.stage i).rank) : i ≠ 0 := by
  intro main
  have low := active.main control main
  omega

/-- What is to be known when a thread goes on without an own block. -/
structure Passes (app mid : App) (i : Nat) (dest : Stage) : Prop where
  rank : (app.stage i).rank < dest.rank
  before : (app.stage i).block = none
  after : dest.block = none
  quiet : ∀ own, dest ≠ .running own
  ends : i = 0 → dest.rank ≤ 12 ∨ dest = .finished
  found : 2 ≤ dest.rank → dest.rank ≤ 12 → mid.has "init.lua"
  own : ∀ init, app.workers[i]? = some init → dest = .load true → mid.has init.script
  zeroed : i = 0 → 12 ≤ dest.rank → ∀ entry, mid.scripts "init.lua" = some entry → entry.len = 0
  reads : ∀ init own data len, app.workers[i]? = some init → dest = .read own data len →
    if init.file own = "init.lua" ∧ i ≠ 0 then len = 0 else mid.scripts (init.file own) = some ⟨data, len, true⟩

/-- A thread goes on after entries or scripts may have changed. -/
theorem Passes.moved (passes : app.Passes mid i dest) (control : mid.Control) (memory : mid.Memory clearing)
    (grows : app.Grows mid) (active : app.Active i init) (before : app.Control) :
    (mid.goto i dest).Sound ∧ app.Effect i (mid.goto i dest) := by
  obtain ⟨rank, outside, lands, quiet, ends, found, own, zeroed, reads⟩ := passes
  have here := congrFun grows.stage
  have storing {stage : Stage} (free : stage.block = none) (r : Nat) : stage ≠ .storeData r := by
    intro now
    simp [now, Stage.block] at free
  have deleting {stage : Stage} (free : stage.block = none) (r : Nat) (old : Option Nat) : stage ≠ .deleteOld r old := by
    intro now
    simp [now, Stage.block] at free
  have known := active.known
  rw [← grows.workers] at known own reads
  refine ⟨⟨control.goto known ?_ ?_ (by omega) ends found own, clearing, memory.goto ?_ ?_ ?_ (storing lands) zeroed reads ?_⟩,
    grows.effect active.running rank ?_ (deleting outside) (storing lands) quiet⟩
  · rw [here]
    exact active.finished
  · rw [here]
    exact active.alone before
  · rw [here]
    exact Nat.le_of_lt rank
  · rw [here, outside, lands]
  · rw [here]
    exact storing outside
  · intro r old now
    exact absurd now (deleting lands r old)
  · intro r old now
    exact absurd now (deleting lands r old)

section Stages

variable (control : app.Control) (memory : app.Memory clearing) (active : app.Active i init)
  (taken : app.advance i init = some next)
include control memory active taken

theorem advance_compileInit (stage : app.stage i = .compileInit) : next.Sound ∧ app.Effect i next := by
  obtain ⟨mid, found, compiled, compiles⟩ := compileScript_compiles app "init.lua"
  obtain ⟨midControl, midMemory, grows, listed, failed⟩ := compiles_sound compiles control memory active.known active.finished
  simp only [App.advance, stage, compiled, Option.elim_some, Option.some.injEq] at taken
  subst taken
  cases found with
  | true =>
      refine Passes.moved ?_ midControl midMemory grows active control
      constructor <;> simp [stage, Stage.rank, Stage.block, listed]
  | false =>
      -- only the main thread can find `init.lua` not compiled
      obtain ⟨same, missing⟩ := failed rfl
      subst same
      have known := active.known
      have main : i = 0 := by
        by_contra other
        exact (memory.keys "init.lua").mpr (control.others (by omega)) missing
      subst main
      refine Passes.moved ?_ midControl midMemory grows active control
      constructor <;> simp [stage, Stage.rank, Stage.block, Stage.afterCleanup, missing]

theorem advance_compileScript (stage : app.stage i = .compileScript) : next.Sound ∧ app.Effect i next := by
  obtain ⟨mid, found, compiled, compiles⟩ := compileScript_compiles app init.script
  obtain ⟨midControl, midMemory, grows, _, _⟩ := compiles_sound compiles control memory active.known active.finished
  simp only [App.advance, stage, compiled, Option.elim_some, Option.some.injEq] at taken
  subst taken
  have has : mid.has "init.lua" :=
    midControl.found i (by simp [grows.stage, stage, Stage.rank]) (by simp [grows.stage, stage, Stage.rank])
  refine Passes.moved ?_ midControl midMemory grows active control
  constructor <;> cases init.isInit <;> simp [stage, Stage.rank, Stage.block, has]

theorem advance_find {own : Bool} (stage : app.stage i = .find own) : next.Sound ∧ app.Effect i next := by
  simp only [App.advance, stage, Option.some.injEq] at taken
  subst taken
  refine Passes.moved ?_ control memory (Grows.refl app) active control
  cases own with
  | true =>
      have other := active.other control (by simp [stage, Stage.rank])
      by_cases cached : (app.scripts (init.file true)).isSome
      · have has : ∀ same, app.workers[i]? = some same → app.has same.script := by
          intro same worker
          rw [active.worker] at worker
          cases worker
          exact (memory.keys _).mp (Option.isSome_iff_ne_none.mp cached)
        rw [if_pos cached]
        constructor <;> simp [stage, Stage.rank, Stage.block, other]
        exact has
      · rw [if_neg cached]
        constructor <;> simp [stage, Stage.rank, Stage.block, Stage.afterRun, other]
  | false =>
      have has : app.has "init.lua" := control.found i (by simp [stage, Stage.rank]) (by simp [stage, Stage.rank])
      split <;> constructor <;> simp [stage, Stage.rank, Stage.block, Stage.afterRun, has]

theorem advance_load {own : Bool} (stage : app.stage i = .load own) : next.Sound ∧ app.Effect i next := by
  simp only [App.advance, stage, Option.map_eq_some_iff] at taken
  obtain ⟨entry, found, rfl⟩ := taken
  have shown : app.scripts (init.file own) = some ⟨entry.data, entry.len, true⟩ := by
    rw [found, ← (memory.strings _ entry found).1]
  have reads : ∀ same own' data len, app.workers[i]? = some same → Stage.read own entry.data entry.len = .read own' data len →
      if same.file own' = "init.lua" ∧ i ≠ 0 then len = 0 else app.scripts (same.file own') = some ⟨data, len, true⟩ := by
    intro same own' data len worker reading
    rw [active.worker] at worker
    cases worker
    cases reading
    split
    · rename_i emptied
      rw [emptied.1] at found
      exact memory.zeroed (by simp [active.alone control emptied.2, Stage.rank]) entry found
    · exact shown
  refine Passes.moved ⟨?_, ?_, ?_, ?_, ?_, ?_, ?_, ?_, reads⟩ control memory (Grows.refl app) active control
  all_goals cases own with
  | true =>
      have other := active.other control (by simp [stage, Stage.rank])
      simp [stage, Stage.rank, Stage.block, other]
  | false =>
      have has : app.has "init.lua" := control.found i (by simp [stage, Stage.rank]) (by simp [stage, Stage.rank])
      simp [stage, Stage.rank, Stage.block, has]

theorem advance_read {own : Bool} {data : Option Nat} {len : Int} (stage : app.stage i = .read own data len) :
    next.Sound ∧ app.Effect i next := by
  obtain ⟨code, chars, _⟩ := Sound.reads control memory active.worker stage
  simp only [App.advance, stage, chars, Option.elim_some, Option.some.injEq] at taken
  subst taken
  have rank : (app.stage i).rank < (Stage.running own).rank := by cases own <;> simp [stage, Stage.rank]
  have main : i = 0 → own = false := by
    intro main
    have low := active.main control main
    cases own with
    | true => simp [stage, Stage.rank] at low
    | false => rfl
  refine ⟨⟨Control.logged (control.goto active.known active.finished (active.alone control) ?_ ?_ ?_ (by simp)) _, clearing,
    Memory.logged (memory.goto (Nat.le_of_lt rank) ?_ (by simp [stage]) (by simp) ?_ (by simp) (by simp)) _⟩, ?_⟩
  · omega
  · intro first
    simp [main first, Stage.rank]
  · intro _ before
    refine control.found i ?_ ?_ <;> cases own <;> simp_all [Stage.rank]
  · simp [stage, Stage.block]
  · intro first high
    simp [main first, Stage.rank] at high
  · exact {
      ended := active.running
      workers := rfl
      others := fun j other => goto_other app _ other
      rank := by simpa [App.goto] using rank
      listed := fun _ listed => listed
      later := Nat.le_refl _
      gone := fun _ _ missing => missing
      deleted := fun _ there missing => absurd missing there
      captured := by simp [App.goto]
      cleared := by simp [App.goto]
      freed := by simp [stage]
      loads := Or.inr ⟨own, data, len, code, init, stage, goto_self .., chars, active.worker, rfl⟩ }

theorem advance_running {own : Bool} (stage : app.stage i = .running own) : next.Sound ∧ app.Effect i next := by
  simp only [App.advance, stage, Option.some.injEq] at taken
  subst taken
  refine Passes.moved ?_ control memory (Grows.refl app) active control
  cases own with
  | true =>
      have other := active.other control (by simp [stage, Stage.rank])
      constructor <;> simp [stage, Stage.rank, Stage.block, Stage.afterRun, other]
  | false =>
      have has : app.has "init.lua" := control.found i (by simp [stage, Stage.rank]) (by simp [stage, Stage.rank])
      constructor <;> simp [stage, Stage.rank, Stage.block, Stage.afterRun, has]

theorem advance_newBlock (stage : app.stage i = .newBlock) : next.Sound ∧ app.Effect i next := by
  have has : app.has "init.lua" := control.found i (by simp [stage, Stage.rank]) (by simp [stage, Stage.rank])
  simp only [App.advance, stage, Option.some.injEq] at taken
  subst taken
  refine ⟨⟨(control.withHeap _).goto active.known active.finished (active.alone control) ?_ ?_ (fun _ _ => has) ?_,
    clearing, memory.newBlock stage⟩, (Grows.allocate app []).effect active.running ?_ ?_ ?_ ?_ ?_⟩ <;>
    simp [stage, Stage.rank]

theorem advance_readOld {r : Nat} (stage : app.stage i = .readOld r) : next.Sound ∧ app.Effect i next := by
  have has : app.has "init.lua" := control.found i (by simp [stage, Stage.rank]) (by simp [stage, Stage.rank])
  simp only [App.advance, stage, Option.map_eq_some_iff] at taken
  obtain ⟨entry, found, rfl⟩ := taken
  obtain ⟨allocated, data⟩ := memory.strings _ entry found
  obtain ⟨address, place⟩ := Option.ne_none_iff_exists'.mp data
  rw [if_pos allocated, place]
  refine ⟨⟨control.goto active.known active.finished (active.alone control) ?_ ?_ (fun _ _ => has) ?_, clearing,
    memory.goto ?_ ?_ ?_ ?_ ?_ ?_ ?captured⟩, (Grows.refl app).effect active.running ?_ ?read ?_ ?_ ?_⟩
  case captured =>
    intro s old deleting
    cases deleting
    exact ⟨entry, address, found, place, rfl, memory.bounded found place⟩
  case read =>
    intro s old deleting
    cases deleting
    exact ⟨stage, entry, found, place.symm⟩
  all_goals simp [stage, Stage.rank, Stage.block]

theorem advance_deleteOld {r : Nat} {old : Option Nat} (stage : app.stage i = .deleteOld r old) :
    (next = app.endWith .undefined ∧ ∃ address, old = some address ∧ app.heap.blocks address = none) ∨
      next.Sound ∧ app.Effect i next := by
  have has : app.has "init.lua" := control.found i (by simp [stage, Stage.rank]) (by simp [stage, Stage.rank])
  obtain ⟨address, rfl, _⟩ := memory.captured i r old stage
  by_cases live : app.heap.blocks address = none
  · have failed : app.heap.free address = none := Heap.put_missing none live
    simp only [App.advance, stage, failed, Option.elim_some, Option.elim_none, Option.some.injEq] at taken
    exact Or.inl ⟨taken.symm, address, rfl, live⟩
  · obtain ⟨heap, freed, next, blocks, after⟩ := memory.deleteOld stage (active.alone control) live
    simp only [App.advance, stage, freed, Option.elim_some, Option.some.injEq] at taken
    subst taken
    have kept {place : Nat} (other : place ≠ address) : heap.blocks place = app.heap.blocks place := by
      rw [blocks, Function.update_of_ne other]
    have missing : heap.blocks address = none := by rw [blocks, Function.update_self]
    refine Or.inr ⟨⟨(control.withHeap heap).goto active.known active.finished (active.alone control) ?_ ?_ (fun _ _ => has) ?_,
      some i, after⟩, ?_⟩
    · simp [Stage.rank]
    · simp [Stage.rank]
    · simp
    · exact {
        ended := active.running
        workers := rfl
        others := fun j other => goto_other _ _ other
        rank := by simp [stage, Stage.rank]
        listed := fun _ listed => listed
        later := Nat.le_of_eq next.symm
        gone := by
          intro place _ before
          by_cases here : place = address
          · rw [here]
            exact missing
          · exact (kept here).trans before
        deleted := by
          intro place there gone
          by_cases here : place = address
          · exact ⟨r, by rw [stage, here]⟩
          · exact absurd ((kept here).symm.trans gone) there
        captured := by simp
        cleared := by
          intro s now
          rw [goto_self] at now
          cases now
          exact ⟨address, stage, missing⟩
        freed := by
          intro s place now
          rw [stage] at now
          cases now
          exact ⟨live, missing⟩
        loads := Or.inl ⟨rfl, by simp⟩ }

theorem advance_storeData {r : Nat} (stage : app.stage i = .storeData r) : next.Sound ∧ app.Effect i next := by
  have has : app.has "init.lua" := control.found i (by simp [stage, Stage.rank]) (by simp [stage, Stage.rank])
  simp only [App.advance, stage, store, Option.map_map, Option.map_eq_some_iff] at taken
  obtain ⟨entry, found, rfl⟩ := taken
  refine ⟨⟨(control.withEntry _).goto active.known active.finished (active.alone control) ?_ ?_ (fun _ _ => has) ?_,
    none, memory.storeData stage (active.alone control) found⟩, (Grows.withEntry app _).effect active.running ?_ ?_ ?_ ?_ ?_⟩ <;>
    simp [stage, Stage.rank]

theorem advance_storeLen (stage : app.stage i = .storeLen) : next.Sound ∧ app.Effect i next := by
  have has : app.has "init.lua" := control.found i (by simp [stage, Stage.rank]) (by simp [stage, Stage.rank])
  simp only [App.advance, stage, store, Option.map_map, Option.map_eq_some_iff] at taken
  obtain ⟨entry, found, rfl⟩ := taken
  have late : app.stage 0 = .storeLen ∨ app.stage 0 = .finished := by
    by_cases main : i = 0
    · exact Or.inl (main ▸ stage)
    · exact Or.inr (active.alone control main)
  refine Passes.moved ⟨?_, ?_, ?_, ?_, ?_, fun _ _ => has, ?_, ?_, ?_⟩ (control.withEntry _) (memory.storeLen late found)
    (Grows.withEntry app _) active control <;> simp [stage, Stage.rank, Stage.block]

theorem advance_storeAllocated (stage : app.stage i = .storeAllocated) : next.Sound ∧ app.Effect i next := by
  simp only [App.advance, stage, store, Option.map_map, Option.map_eq_some_iff] at taken
  obtain ⟨entry, found, rfl⟩ := taken
  have unchanged : { entry with allocated := true } = entry := by
    rw [← (memory.strings _ entry found).1]
  simp only [Function.comp, unchanged, withEntry_same found]
  refine Passes.moved ?_ control memory (Grows.refl app) active control
  by_cases main : i = 0
  · subst main
    have zeroed := memory.zeroed (by simp [stage, Stage.rank])
    constructor <;> simp_all [Stage.rank, Stage.block, Stage.afterCleanup]
  · constructor <;> simp [stage, Stage.rank, Stage.block, Stage.afterCleanup, main]

end Stages

/-- One step of a thread keeps the invariants, unless it deletes a block that is gone. -/
theorem Sound.advance (sound : app.Sound) (running : app.ended = none) (worker : app.workers[i]? = some init)
    (taken : app.advance i init = some next) :
    (next = app.endWith .undefined ∧ ∃ r address, app.stage i = .deleteOld r (some address) ∧
      app.heap.blocks address = none) ∨ next.Sound ∧ app.Effect i next := by
  obtain ⟨control, clearing, memory⟩ := sound
  have created : app.stage i ≠ .created := by
    intro stage
    simp [App.advance, stage] at taken
  have finished : app.stage i ≠ .finished := by
    intro stage
    simp [App.advance, stage] at taken
  have active : app.Active i init := ⟨worker, running, created, finished⟩
  cases stage : app.stage i with
  | created => exact absurd stage created
  | compileInit => exact Or.inr (advance_compileInit control memory active taken stage)
  | compileScript => exact Or.inr (advance_compileScript control memory active taken stage)
  | find own => exact Or.inr (advance_find control memory active taken stage)
  | load own => exact Or.inr (advance_load control memory active taken stage)
  | read own data len => exact Or.inr (advance_read control memory active taken stage)
  | running own => exact Or.inr (advance_running control memory active taken stage)
  | newBlock => exact Or.inr (advance_newBlock control memory active taken stage)
  | readOld r => exact Or.inr (advance_readOld control memory active taken stage)
  | deleteOld r old =>
      refine (advance_deleteOld control memory active taken stage).imp_left ?_
      intro fault
      obtain ⟨ended, address, same, missing⟩ := fault
      exact ⟨ended, r, address, by rw [same], missing⟩
  | storeData r => exact Or.inr (advance_storeData control memory active taken stage)
  | storeLen => exact Or.inr (advance_storeLen control memory active taken stage)
  | storeAllocated => exact Or.inr (advance_storeAllocated control memory active taken stage)
  | finished => exact absurd stage finished

end App

end Webapp.Scripts

import Webapp.Scripts.Steps

namespace Webapp.Scripts

open Webapp.Data Webapp.Strings

namespace App

variable {app next : App} {clearing : Option Nat} {i : Nat} {event : AppEvent}

/-- `scripts.clear()` deletes the blocks of the entries one after the other. -/
theorem clear_entries {scripts : String → Option WebappStr} {entries : List (String × List UInt8)}
    (once : (entries.map Prod.fst).Nodup) {heap : Heap (List UInt8)} {holds : Owner → Option Nat} (owned : Owned heap holds)
    (each : ∀ entry ∈ entries, ∃ script address, scripts entry.1 = some script ∧ script.allocated = true ∧
      script.data = some address ∧ holds (.entry entry.1) = some address) :
    ∃ after left, entries.foldlM (fun heap entry => (scripts entry.1).elim (some heap) fun script => script.release heap) heap =
        some after ∧ Owned after left ∧
      ∀ owner, left owner = none ∨ left owner = holds owner ∧ ∀ entry ∈ entries, owner ≠ .entry entry.1 := by
  induction entries generalizing heap holds with
  | nil => exact ⟨heap, holds, rfl, owned, fun owner => Or.inr ⟨rfl, by simp⟩⟩
  | cons entry entries ih =>
      rw [List.forall_mem_cons] at each
      obtain ⟨⟨script, address, found, allocated, data, held⟩, rest⟩ := each
      rw [List.map_cons, List.nodup_cons] at once
      obtain ⟨heap', freed, _, ownedNext⟩ := owned.freed held
      have released : script.release heap = some heap' := by simp [WebappStr.release, allocated, data, freed]
      obtain ⟨after, left, cleared, ownedAfter, state⟩ := ih once.2 ownedNext (by
        intro other member
        obtain ⟨script', address', found', allocated', data', held'⟩ := rest other member
        refine ⟨script', address', found', allocated', data', ?_⟩
        rw [Function.update_of_ne ?_, held']
        intro same
        have name : other.1 = entry.1 := by simpa using same
        exact once.1 (name ▸ List.mem_map_of_mem member))
      refine ⟨after, left, ?_, ownedAfter, ?_⟩
      · simp only [List.foldlM_cons, found, Option.elim_some, released]
        exact cleared
      · intro owner
        rcases state owner with gone | ⟨same, others⟩
        · exact Or.inl gone
        · by_cases first : owner = .entry entry.1
          · rw [first, Function.update_self] at same
            exact Or.inl (by rw [first, same])
          · rw [Function.update_of_ne first] at same
            refine Or.inr ⟨same, ?_⟩
            rw [List.forall_mem_cons]
            exact ⟨first, others⟩

/-- When all threads have finished, nothing is left of the scripts after they were cleared. -/
theorem Sound.clear (sound : app.Sound) (finished : ∀ i < app.workers.length, app.stage i = .finished) :
    ∃ heap, app.clear = some heap ∧ ∀ address, heap.blocks address = none := by
  obtain ⟨control, clearing, memory⟩ := sound
  have stage (i : Nat) : app.stage i = .finished ∨ app.stage i = .created := by
    rcases Nat.lt_or_ge i app.workers.length with known | beyond
    · exact Or.inl (finished i known)
    · exact Or.inr (control.absent i beyond)
  have calm : clearing = none := by
    cases busy : clearing with
    | none => rfl
    | some j =>
        obtain ⟨r, storing⟩ := (memory.clears j).mpr busy
        rcases stage j with now | now <;> simp [now] at storing
  subst calm
  have each : ∀ entry ∈ app.compiled, ∃ script address, app.scripts entry.1 = some script ∧ script.allocated = true ∧
      script.data = some address ∧ app.holds none (.entry entry.1) = some address := by
    intro entry listed
    obtain ⟨script, found⟩ := Option.ne_none_iff_exists'.mp ((memory.keys entry.1).mpr (List.mem_map_of_mem listed))
    obtain ⟨allocated, data⟩ := memory.strings _ script found
    obtain ⟨address, place⟩ := Option.ne_none_iff_exists'.mp data
    exact ⟨script, address, found, allocated, place, by simp [holds, found, place]⟩
  obtain ⟨heap, left, cleared, owned, state⟩ := clear_entries control.once memory.owned each
  refine ⟨heap, cleared, owned.empty ?_⟩
  intro owner
  rcases state owner with gone | ⟨same, others⟩
  · exact gone
  · rw [same]
    cases owner with
    | entry file =>
        have missing : app.scripts file = none := by
          by_contra there
          obtain ⟨entry, listed, name⟩ := List.mem_map.mp ((memory.keys file).mp there)
          exact others entry listed (by rw [name])
        simp [holds, missing]
    | pending i => rcases stage i with now | now <;> simp [holds, now, Stage.block]

/-- Everything that an event can do. -/
inductive Took (app : App) : AppEvent → App → Prop
  | faults {i r address : Nat} (known : i < app.workers.length) (deleting : app.stage i = .deleteOld r (some address))
      (missing : app.heap.blocks address = none) : Took app (.advance i) (app.endWith .undefined)
  | advances {i : Nat} {next : App} (sound : next.Sound) (effect : app.Effect i next) : Took app (.advance i) next
  | grows {event : AppEvent} {next : App} (sound : next.Sound) (grows : app.Grows next) : Took app event next
  | creates {init : WorkerInit} (running : app.stage 0 = .running false)
      (sound : ({ app with workers := app.workers ++ [init] } : App).Sound) :
      Took app (.create init) { app with workers := app.workers ++ [init] }
  | starts {i : Nat} (other : i ≠ 0) (known : i < app.workers.length) (created : app.stage i = .created)
      (finished : app.stage 0 = .finished) (sound : (app.goto i .compileInit).Sound) :
      Took app (.start i) (app.goto i .compileInit)
  | terminates (finished : ∀ i < app.workers.length, app.stage i = .finished)
      (sockets : app.workers.any WorkerInit.clientSockets = true) : Took app .cycle (app.endWith .terminated)
  | restarts {heap : Heap (List UInt8)} (finished : ∀ i < app.workers.length, app.stage i = .finished)
      (sockets : app.workers.any WorkerInit.clientSockets = false) (empty : ∀ address, heap.blocks address = none) :
      Took app .cycle (App.begin app.files heap)
  | stops {heap : Heap (List UInt8)} (finished : ∀ i < app.workers.length, app.stage i = .finished)
      (empty : ∀ address, heap.blocks address = none) : Took app .cycle (app.stop heap)

theorem begin_sound (files : String → Option Bytecode) {heap : Heap (List UInt8)} (empty : ∀ address, heap.blocks address = none) :
    (App.begin files heap).Sound :=
  ⟨Control.begin files heap, none, Memory.begin files empty⟩

theorem stop_sound (app : App) {heap : Heap (List UInt8)} (empty : ∀ address, heap.blocks address = none) :
    (app.stop heap).Sound := by
  have control := Control.begin app.files heap
  have memory := Memory.begin app.files empty
  have known : 0 < (App.begin app.files heap).workers.length := control.present
  have ended : ((App.begin app.files heap).goto 0 .finished).Sound := by
    refine ⟨control.goto known ?_ ?_ ?_ ?_ ?_ ?_, none, memory.goto ?_ ?_ ?_ ?_ ?_ ?_ ?_⟩ <;>
      simp [App.begin, Stage.rank, Stage.block]
  obtain ⟨control, clearing, memory⟩ := ended
  exact ⟨{ control with }, clearing, { memory with }⟩

theorem Memory.create (memory : app.Memory clearing) (control : app.Control) (init : WorkerInit) :
    ({ app with workers := app.workers ++ [init] } : App).Memory clearing := by
  refine { memory with reads := ?_ }
  intro i other own data len worker reading
  rcases Nat.lt_or_ge i app.workers.length with known | beyond
  · exact memory.reads i other own data len (by rwa [List.getElem?_append_left known] at worker) reading
  · have reading : app.stage i = .read own data len := reading
    rw [control.absent i beyond] at reading
    cases reading

theorem Sound.nextCycle (sound : app.Sound) (finished : ∀ i < app.workers.length, app.stage i = .finished) :
    app.Took .cycle app.nextCycle := by
  rw [App.nextCycle]
  cases sockets : app.workers.any WorkerInit.clientSockets with
  | true =>
      rw [if_pos rfl]
      exact .terminates finished sockets
  | false =>
      rw [if_neg (by simp)]
      obtain ⟨heap, cleared, empty⟩ := sound.clear finished
      rw [cleared, Option.elim_some]
      split
      · exact .stops finished empty
      · exact .restarts finished sockets empty

theorem Sound.took (sound : app.Sound) (running : app.ended = none) (taken : app.step event = some next) :
    app.Took event next := by
  obtain ⟨control, clearing, memory⟩ := id sound
  rw [App.step.eq_def, if_neg (by simp [running])] at taken
  cases event with
  | edit file code =>
      cases taken
      exact .grows ⟨{ control with }, clearing, { memory with }⟩
        ⟨rfl, rfl, rfl, rfl, fun _ listed => listed, Nat.le_refl _, fun _ _ => rfl⟩
  | create init =>
      obtain ⟨main, rfl⟩ := guarded_step taken
      exact .creates main ⟨control.create init main, clearing, memory.create control init⟩
  | start i =>
      obtain ⟨⟨positive, known, created, finished⟩, rfl⟩ := guarded_step taken
      have other : i ≠ 0 := by omega
      refine .starts other known created finished ⟨control.goto known ?_ (fun _ => finished) ?_ ?_ ?_ ?_, clearing,
        memory.goto ?_ ?_ ?_ ?_ ?_ ?_ ?_⟩ <;> simp [created, other, Stage.rank, Stage.block]
  | compile i file =>
      obtain ⟨⟨known, calling⟩, rfl⟩ := guarded_step taken
      have active : app.stage i ≠ .finished := by
        intro now
        simp [now, Stage.isRunning] at calling
      obtain ⟨mid, found, compiled, compiles⟩ := compileScript_compiles app file
      obtain ⟨midControl, midMemory, grows, _, _⟩ := compiles_sound compiles control memory known active
      rw [compiled, Option.elim_some]
      exact .grows ⟨midControl, clearing, midMemory⟩ grows
  | shutdown i =>
      obtain ⟨_, rfl⟩ := guarded_step taken
      exact .grows ⟨{ control with }, clearing, { memory with }⟩
        ⟨rfl, rfl, rfl, rfl, fun _ listed => listed, Nat.le_refl _, fun _ _ => rfl⟩
  | advance i =>
      obtain ⟨init, worker, taken⟩ := Option.bind_eq_some_iff.mp taken
      rcases sound.advance running worker taken with ⟨rfl, r, address, deleting, missing⟩ | ⟨after, effect⟩
      · exact .faults (List.getElem?_eq_some_iff.mp worker).1 deleting missing
      · exact .advances after effect
  | cycle =>
      obtain ⟨finished, rfl⟩ := guarded_step taken
      exact sound.nextCycle finished

theorem Sound.endWith (sound : app.Sound) (ending : Ending) : (app.endWith ending).Sound := by
  obtain ⟨control, clearing, memory⟩ := sound
  exact ⟨{ control with }, clearing, { memory with }⟩

theorem step_running (taken : app.step event = some next) : app.ended = none := by
  by_contra ended
  simp [App.step.eq_def, ended] at taken

theorem step_advance (running : app.ended = none) (i : Nat) : app.step (.advance i) = app.workers[i]?.bind (app.advance i) := by
  simp [App.step, running]

theorem step_start (running : app.ended = none) (other : i ≠ 0) (known : i < app.workers.length)
    (created : app.stage i = .created) (finished : app.stage 0 = .finished) :
    app.step (.start i) = some (app.goto i .compileInit) := by
  simp [App.step, running, Nat.pos_of_ne_zero other, known, created, finished]

theorem Sound.step (sound : app.Sound) (taken : app.step event = some next) : next.Sound := by
  cases sound.took (step_running taken) taken with
  | faults known deleting missing => exact sound.endWith _
  | advances after effect => exact after
  | grows after grows => exact after
  | creates main after => exact after
  | starts other known created finished after => exact after
  | terminates finished sockets => exact sound.endWith _
  | restarts finished sockets empty => exact begin_sound _ empty
  | stops finished empty => exact stop_sound app empty

theorem run_sound {files : String → Option Bytecode} {events : List AppEvent}
    (ends : run App.step (App.begin files Heap.empty) events = some app) : app.Sound :=
  run_preserves (begin_sound files fun _ => rfl) Sound.step ends

theorem compileScript_aborted {file : String} {result : App × Bool} (compiled : app.compileScript file = some result) :
    result.1.aborted = app.aborted := by
  rw [App.compileScript] at compiled
  split at compiled
  · cases compiled
    rfl
  · split at compiled
    · cases compiled
      rfl
    · obtain ⟨memory, _, rfl⟩ := Option.map_eq_some_iff.mp compiled
      rfl

/-- Only `Worker_Shutdown` sets `aborted`. -/
theorem advance_aborted {init : WorkerInit} (taken : app.advance i init = some next) : next.aborted = app.aborted := by
  have compiles (file : String) (dest : Bool → Stage) :
      ((app.compileScript file).elim (app.endWith .undefined) fun result => result.1.goto i (dest result.2)).aborted =
        app.aborted := by
    cases compiled : app.compileScript file with
    | none => rfl
    | some result => exact compileScript_aborted compiled
  have stores (change : WebappStr → WebappStr) (dest : Stage)
      (stored : (app.store change).map (fun next => next.goto i dest) = some next) : next.aborted = app.aborted := by
    obtain ⟨_, entry, rfl⟩ := Option.map_eq_some_iff.mp stored
    obtain ⟨_, _, rfl⟩ := Option.map_eq_some_iff.mp entry
    rfl
  rw [App.advance.eq_def] at taken
  split at taken
  · cases taken
  · cases taken
  · cases taken
    exact compiles "init.lua" fun found => if found then .compileScript else .afterCleanup i
  · cases taken
    exact compiles init.script fun _ => if init.isInit then .find false else .newBlock
  · cases taken
    rfl
  · obtain ⟨entry, _, rfl⟩ := Option.map_eq_some_iff.mp taken
    rfl
  · cases taken
    rename_i data len _
    cases WebappStr.chars app.heap ⟨data, len, false⟩ with
    | none => rfl
    | some code => rfl
  · cases taken
    rfl
  · cases taken
    rfl
  · obtain ⟨entry, _, rfl⟩ := Option.map_eq_some_iff.mp taken
    rfl
  · cases taken
    rename_i old _
    cases old.elim (some app.heap) app.heap.free with
    | none => rfl
    | some heap => rfl
  · exact stores _ _ taken
  · exact stores _ _ taken
  · exact stores _ _ taken

theorem step_aborted (taken : app.step event = some next) (running : next.ended = none) :
    next.aborted = true ↔ app.aborted = true ∨ ∃ i, event = .shutdown i := by
  rw [App.step.eq_def, if_neg (by simp [step_running taken])] at taken
  cases event with
  | edit file code =>
      cases taken
      simp
  | create init =>
      obtain ⟨_, rfl⟩ := guarded_step taken
      simp
  | start i =>
      obtain ⟨_, rfl⟩ := guarded_step taken
      simp [App.goto]
  | compile i file =>
      obtain ⟨_, rfl⟩ := guarded_step taken
      cases compiled : app.compileScript file with
      | none => simp [App.endWith]
      | some result => simp [compileScript_aborted compiled]
  | shutdown i =>
      obtain ⟨_, rfl⟩ := guarded_step taken
      simp
  | advance i =>
      obtain ⟨init, _, taken⟩ := Option.bind_eq_some_iff.mp taken
      simp [advance_aborted taken]
  | cycle =>
      obtain ⟨_, rfl⟩ := guarded_step taken
      -- The only cycle that goes on is one that no shutdown has ended.
      rw [App.nextCycle] at running ⊢
      split at running
      · cases running
      · rename_i sockets
        rw [if_neg sockets]
        cases cleared : app.clear with
        | none => simp [cleared, App.endWith] at running
        | some heap =>
            cases aborted : app.aborted with
            | true => simp [cleared, aborted, App.stop] at running
            | false => simp [App.begin]

theorem run_aborted {files : String → Option Bytecode} {events : List AppEvent}
    (ends : run App.step (App.begin files Heap.empty) events = some app) (running : app.ended = none) :
    app.aborted = true ↔ ∃ i, .shutdown i ∈ events := by
  refine run_history (P := fun past app => app.ended = none → (app.aborted = true ↔ ∃ i, .shutdown i ∈ past))
    ?_ ?_ ends running
  · simp [App.begin]
  · intro past app event next _ holds taken running
    rw [step_aborted taken running, holds (step_running taken)]
    simp [exists_or, eq_comm]

theorem twoChunks_nonempty : ([[0x1b], [0x4c, 0x4a]] : List (List UInt8)).flatten ≠ [] := by decide

theorem twoChunks_short : ([[0x1b], [0x4c, 0x4a]] : List (List UInt8)).flatten.length < 2147483648 := by decide

/-- Every file compiles, to the same few bytes. -/
def twoChunks : String → Option Bytecode := fun file =>
  if file = "" then none else some ⟨[[0x1b], [0x4c, 0x4a]], twoChunks_nonempty, twoChunks_short⟩

/-- The main thread's `Cleanup`, with an `init.lua` that creates these workers. -/
def mainThread (inits : List WorkerInit) : List AppEvent :=
  List.replicate 5 (.advance 0) ++ inits.map .create ++ List.replicate 7 (.advance 0)

def wholeThread (i steps : Nat) : List AppEvent := .start i :: List.replicate steps (.advance i)

/-- A worker's script calls `Worker_Shutdown` while it runs. -/
def shutdownThread : List AppEvent := mainThread [⟨"a.lua", false, false⟩] ++ wholeThread 1 11 ++ [.shutdown 1, .advance 1]

end App

end Webapp.Scripts

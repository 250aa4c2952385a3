import Webapp.Scripts.Cycle

namespace Webapp.Scripts

open Webapp.Data Webapp.Strings

/-! Threads that empty the entry of `init.lua` at the same time.  `operator=` reads the
pointer to the old block, deletes the block and stores the new pointer; a thread that
reads the pointer in between will delete the same block.
-/

/-- Between reading the old pointer and storing the new one. -/
def Stage.inWindow : Stage → Bool
  | deleteOld _ _ | storeData _ => true
  | _ => false

theorem Stage.inWindow_iff {stage : Stage} :
    stage.inWindow = true ↔ (∃ r old, stage = .deleteOld r old) ∨ ∃ r, stage = .storeData r := by
  cases stage <;> simp [Stage.inWindow]

namespace App

variable {app next reached : App} {event : AppEvent} {events : List AppEvent}

/-- No thread reads the pointer while another is between reading and storing it. -/
def Exclusive (app : App) (event : AppEvent) : Prop :=
  ∀ i r, event = .advance i → app.stage i = .readOld r → ∀ j < app.workers.length, (app.stage j).inWindow = false

/-- One thread at most is between reading and storing, and what it has read is there. -/
structure Alone (app : App) : Prop where
  one : ∀ i j, (app.stage i).inWindow = true → (app.stage j).inWindow = true → i = j
  live : ∀ i r address, app.stage i = .deleteOld r (some address) → app.heap.blocks address ≠ none

/-- Where no thread is between reading and storing there is nothing to show. -/
theorem Alone.idle (idle : ∀ i, (app.stage i).inWindow = false) : app.Alone := by
  refine ⟨?_, ?_⟩
  · intro i j busy
    rw [idle i] at busy
    cases busy
  · intro i r address deleting
    have busy := idle i
    simp [deleting, Stage.inWindow] at busy

theorem Alone.begin (files : String → Option Bytecode) (heap : Heap (List UInt8)) : (App.begin files heap).Alone := by
  refine Alone.idle fun i => ?_
  by_cases first : i = 0
  · simp [App.begin, first, Stage.inWindow]
  · simp [App.begin, first, Stage.inWindow]

theorem Alone.stop (app : App) (heap : Heap (List UInt8)) : (app.stop heap).Alone := by
  refine Alone.idle fun i => ?_
  by_cases first : i = 0
  · simp [App.stop, App.goto, App.begin, first, Stage.inWindow]
  · simp [App.stop, App.goto, App.begin, first, Stage.inWindow]

theorem Alone.same (alone : app.Alone) (stage : ∀ i, (next.stage i).inWindow = true → next.stage i = app.stage i)
    (kept : ∀ address, app.heap.blocks address ≠ none → next.heap.blocks address ≠ none) : next.Alone := by
  refine ⟨?_, ?_⟩
  · intro i j first second
    exact alone.one i j (stage i first ▸ first) (stage j second ▸ second)
  · intro i r address deleting
    have same := stage i (by simp [deleting, Stage.inWindow])
    exact kept address (alone.live i r address (same ▸ deleting))

theorem Grows.there (grows : app.Grows next) (address : Nat) (there : app.heap.blocks address ≠ none) :
    next.heap.blocks address ≠ none := by
  obtain ⟨block, found⟩ := Option.ne_none_iff_exists'.mp there
  rwa [grows.kept address (Heap.bounded found)]

/-- In an exclusive run the pointer is read when the entry owns its block. -/
theorem Alone.advances (alone : app.Alone) (sound : app.Sound) {i : Nat} (exclusive : app.Exclusive (.advance i))
    (effect : app.Effect i next) : next.Alone := by
  obtain ⟨control, clearing, memory⟩ := sound
  have known {j : Nat} (busy : (app.stage j).inWindow = true) : j < app.workers.length := by
    by_contra beyond
    rw [control.absent j (by omega)] at busy
    simp [Stage.inWindow] at busy
  -- who is in the window now was there before, or has just read the pointer
  have entered (busy : (next.stage i).inWindow = true) :
      (app.stage i).inWindow = true ∨ (∀ j, (app.stage j).inWindow = false) := by
    rcases Stage.inWindow_iff.mp busy with ⟨r, old, deleting⟩ | ⟨r, storing⟩
    · obtain ⟨reading, _⟩ := effect.captured r old deleting
      refine Or.inr ?_
      intro j
      by_contra other
      have other : (app.stage j).inWindow = true := by simpa using other
      have none := exclusive i r rfl reading j (known other)
      simp [none] at other
    · obtain ⟨address, deleting, _⟩ := effect.cleared r storing
      exact Or.inl (by simp [deleting, Stage.inWindow])
  refine ⟨?_, ?_⟩
  · intro j k first second
    by_cases firstMine : j = i
    · by_cases secondMine : k = i
      · rw [firstMine, secondMine]
      · rw [effect.others k secondMine] at second
        rw [firstMine] at first ⊢
        rcases entered first with before | nobody
        · exact alone.one i k before second
        · simp [nobody k] at second
    · rw [effect.others j firstMine] at first
      by_cases secondMine : k = i
      · rw [secondMine] at second ⊢
        rcases entered second with before | nobody
        · exact alone.one j i first before
        · simp [nobody j] at first
      · rw [effect.others k secondMine] at second
        exact alone.one j k first second
  · intro j r address deleting
    by_cases mine : j = i
    · rw [mine] at deleting
      obtain ⟨reading, entry, found, data⟩ := effect.captured r _ deleting
      have nobody := (entered (by simp [deleting, Stage.inWindow])).resolve_left (by simp [reading, Stage.inWindow])
      have calm : clearing = none := by
        cases busy : clearing with
        | none => rfl
        | some k =>
            obtain ⟨s, storing⟩ := (memory.clears k).mpr busy
            have none := nobody k
            simp [storing, Stage.inWindow] at none
      subst calm
      have live := memory.owned.live _ _ (holds_init found data.symm)
      intro missing
      obtain ⟨s, was⟩ := effect.deleted address live missing
      rw [reading] at was
      cases was
    · rw [effect.others j mine] at deleting
      have live := alone.live j r address deleting
      intro missing
      obtain ⟨s, was⟩ := effect.deleted address live missing
      exact mine (alone.one j i (by simp [deleting, Stage.inWindow]) (by simp [was, Stage.inWindow]))

theorem Alone.step (alone : app.Alone) (sound : app.Sound) (exclusive : app.Exclusive event)
    (taken : app.step event = some next) : next.Alone ∧ (next.ended ≠ some .undefined) := by
  have running := step_running taken
  cases sound.took running taken with
  | @faults i r address known deleting missing => exact absurd missing (alone.live i r address deleting)
  | advances after effect => exact ⟨alone.advances sound exclusive effect, by simp [effect.ended]⟩
  | grows after grows =>
      exact ⟨alone.same (fun i _ => congrFun grows.stage i) grows.there, by simp [grows.ended, running]⟩
  | creates main after => exact ⟨{ alone with }, by simp [running]⟩
  | @starts i other known created finished after =>
      refine ⟨alone.same ?_ fun _ there => there, by simp [App.goto, running]⟩
      intro j busy
      rcases goto_cases app i .compileInit j with ⟨_, now⟩ | ⟨_, same⟩
      · simp [now, Stage.inWindow] at busy
      · exact same
  | terminates finished sockets => exact ⟨{ alone with }, by simp [endWith]⟩
  | restarts finished sockets empty => exact ⟨Alone.begin _ _, by simp [App.begin]⟩
  | stops finished empty => exact ⟨Alone.stop app _, by simp [App.stop]⟩

/-- A thread is about to delete a block that is gone, or that another is about to
delete as well. -/
def Doomed (app : App) : Prop :=
  ∃ j r address, app.stage j = .deleteOld r (some address) ∧ address < app.heap.next ∧
    (app.heap.blocks address = none ∨ ∃ i s, i ≠ j ∧ app.stage i = .deleteOld s (some address))

theorem Doomed.kept (doomed : app.Doomed) (stage : ∀ j r old, app.stage j = .deleteOld r old → next.stage j = app.stage j)
    (later : app.heap.next ≤ next.heap.next)
    (gone : ∀ address, address < app.heap.next → app.heap.blocks address = none → next.heap.blocks address = none) :
    next.Doomed := by
  obtain ⟨j, r, address, deleting, bounded, state⟩ := doomed
  refine ⟨j, r, address, (stage j r _ deleting).trans deleting, by omega, ?_⟩
  rcases state with missing | ⟨i, s, other, both⟩
  · exact Or.inl (gone address bounded missing)
  · exact Or.inr ⟨i, s, other, (stage i s _ both).trans both⟩

/-- The first of two that have read the same pointer deletes the block, and the second
finds it gone. -/
theorem Doomed.advances (doomed : app.Doomed) {i : Nat} (effect : app.Effect i next) : next.Doomed := by
  obtain ⟨j, r, address, deleting, bounded, state⟩ := doomed
  have later : address < next.heap.next := Nat.lt_of_lt_of_le bounded effect.later
  by_cases mine : j = i
  · rw [mine] at deleting state
    obtain ⟨live, missing⟩ := effect.freed r address deleting
    obtain ⟨k, s, other, both⟩ := state.resolve_left live
    exact ⟨k, s, address, (effect.others k other).trans both, later, Or.inl missing⟩
  · have still : next.stage j = .deleteOld r (some address) := (effect.others j mine).trans deleting
    refine ⟨j, r, address, still, later, ?_⟩
    rcases state with missing | ⟨k, s, other, both⟩
    · exact Or.inl (effect.gone address bounded missing)
    · by_cases first : k = i
      · rw [first] at both
        exact Or.inl (effect.freed s address both).2
      · exact Or.inr ⟨k, s, other, (effect.others k first).trans both⟩

theorem Doomed.unfinished (doomed : app.Doomed) (control : app.Control) :
    ¬∀ i < app.workers.length, (app.stage i).inWindow = false := by
  intro quiet
  obtain ⟨j, r, address, deleting, _⟩ := doomed
  have known : j < app.workers.length := by
    by_contra beyond
    rw [control.absent j (by omega)] at deleting
    cases deleting
  have none := quiet j known
  simp [deleting, Stage.inWindow] at none

theorem Doomed.step (doomed : app.Doomed) (sound : app.Sound) (taken : app.step event = some next) :
    next.ended = some .undefined ∨ next.Doomed := by
  have unfinished : ¬∀ i < app.workers.length, app.stage i = .finished := by
    intro finished
    refine doomed.unfinished sound.control ?_
    intro i known
    simp [finished i known, Stage.inWindow]
  cases sound.took (step_running taken) taken with
  | faults known deleting missing => exact Or.inl rfl
  | advances after effect => exact Or.inr (doomed.advances effect)
  | grows after grows =>
      refine Or.inr (doomed.kept (fun j _ _ _ => congrFun grows.stage j) grows.later ?_)
      intro address bounded missing
      exact (grows.kept address bounded).trans missing
  | creates main after => exact Or.inr doomed
  | @starts i other known created finished after =>
      refine Or.inr (doomed.kept ?_ (Nat.le_refl _) fun _ _ missing => missing)
      intro j r old deleting
      refine goto_other app _ ?_
      intro same
      rw [same, created] at deleting
      cases deleting
  | terminates finished sockets => exact absurd finished unfinished
  | restarts finished sockets empty => exact absurd finished unfinished
  | stops finished empty => exact absurd finished unfinished

/-- From there the program ends, or a thread stays on its way. -/
theorem Doomed.run (doomed : app.Doomed) (sound : app.Sound) (ends : run App.step app events = some reached) :
    reached.ended = some .undefined ∨ reached.Doomed := by
  induction events generalizing app with
  | nil =>
      cases ends
      exact Or.inr doomed
  | cons event events ih =>
      obtain ⟨next, taken, ends⟩ := Option.bind_eq_some_iff.mp ends
      rcases doomed.step sound taken with ended | still
      · cases events with
        | nil =>
            cases ends
            exact Or.inl ended
        | cons event' events =>
            obtain ⟨last, more, _⟩ := Option.bind_eq_some_iff.mp ends
            rw [step_running more] at ended
            cases ended
      · exact ih still (sound.step taken) ends

/-- What a thread reads before it deletes. -/
theorem Sound.captures (sound : app.Sound) {i r : Nat} (reading : app.stage i = .readOld r) (init : WorkerInit) :
    ∃ entry address, app.scripts "init.lua" = some entry ∧ entry.data = some address ∧ address < app.heap.next ∧
      app.advance i init = some (app.goto i (.deleteOld r (some address))) := by
  obtain ⟨control, clearing, memory⟩ := sound
  have has := (memory.keys _).mpr (control.found i (by simp [reading, Stage.rank]) (by simp [reading, Stage.rank]))
  obtain ⟨entry, found⟩ := Option.ne_none_iff_exists'.mp has
  obtain ⟨allocated, data⟩ := memory.strings _ entry found
  obtain ⟨address, place⟩ := Option.ne_none_iff_exists'.mp data
  refine ⟨entry, address, found, place, memory.bounded found place, ?_⟩
  simp only [App.advance, reading, found, Option.map_some, if_pos allocated, place]

/-- A thread that reads the pointer while another is on its way dooms the program. -/
theorem Sound.doomed (sound : app.Sound) {i j r : Nat} (reading : app.stage i = .readOld r)
    (busy : (app.stage j).inWindow = true) (taken : app.step (.advance i) = some next) : next.Doomed := by
  rw [step_advance (step_running taken)] at taken
  obtain ⟨init, _, taken⟩ := Option.bind_eq_some_iff.mp taken
  obtain ⟨entry, address, found, place, bounded, captures⟩ := sound.captures reading init
  rw [captures] at taken
  cases taken
  obtain ⟨control, clearing, memory⟩ := sound
  have other : j ≠ i := by
    intro same
    simp [same, reading, Stage.inWindow] at busy
  have still := goto_other app (.deleteOld r (some address)) other
  rcases Stage.inWindow_iff.mp busy with ⟨s, old, deleting⟩ | ⟨s, storing⟩
  · obtain ⟨older, rfl, olderBounded, state⟩ := memory.captured j s old deleting
    rcases state with missing | ⟨entry', found', place'⟩
    · exact ⟨j, s, older, still.trans deleting, olderBounded, Or.inl missing⟩
    · rw [found] at found'
      cases found'
      rw [place] at place'
      cases place'
      exact ⟨i, r, address, goto_self .., bounded, Or.inr ⟨j, s, other, still.trans deleting⟩⟩
  · have clears := (memory.clears j).mp ⟨s, storing⟩
    have missing := (memory.dangling (by simp [clears]) entry address found place).2
    exact ⟨i, r, address, goto_self .., bounded, Or.inl missing⟩

theorem Sound.exclusive (sound : app.Sound) (ends : run App.step app events = some reached)
    (quiet : ∀ i < reached.workers.length, (reached.stage i).inWindow = false) (defined : reached.ended ≠ some .undefined) :
    Along App.step Exclusive app events := by
  induction events generalizing app with
  | nil => trivial
  | cons event events ih =>
      intro next taken
      obtain ⟨next', taken', rest⟩ := Option.bind_eq_some_iff.mp ends
      cases Option.some.inj (taken.symm.trans taken')
      have after := sound.step taken
      refine ⟨?_, ih after rest⟩
      intro i r event reading j known
      by_contra busy
      subst event
      have doomed := sound.doomed reading (by simpa using busy) taken
      rcases doomed.run after rest with ended | still
      · exact defined ended
      · exact still.unfinished (run_preserves after Sound.step rest).control quiet

theorem scripts_safe_iff (files : String → Option Bytecode) (events : List AppEvent) (reached : App)
    (ends : run App.step (App.begin files Heap.empty) events = some reached) :
    (Along App.step Exclusive (App.begin files Heap.empty) events → reached.ended ≠ some .undefined) ∧
      ((∀ i < reached.workers.length, (reached.stage i).inWindow = false) → reached.ended ≠ some .undefined →
        Along App.step Exclusive (App.begin files Heap.empty) events) := by
  have sound : (App.begin files Heap.empty).Sound := begin_sound files fun _ => rfl
  refine ⟨?_, sound.exclusive ends⟩
  intro exclusive
  have holds : reached.Sound ∧ reached.Alone ∧ reached.ended ≠ some .undefined := by
    refine @run_invariant _ _ _ _ (fun app : App => app.Sound ∧ app.Alone ∧ app.ended ≠ some .undefined) _ _ _
      ⟨sound, Alone.begin files Heap.empty, by simp [App.begin]⟩ ?_ exclusive ends
    intro app event next holds allowed taken
    exact ⟨holds.1.step taken, holds.2.1.step holds.1 allowed taken⟩
  exact holds.2.2

theorem scripts_safe_one_by_one :
    ∃ reached, run App.step (App.begin twoChunks Heap.empty) (mainThread [⟨"a.lua", true, false⟩, ⟨"b.lua", false, false⟩] ++
        wholeThread 1 16 ++ wholeThread 2 12) = some reached ∧
      Along App.step Exclusive (App.begin twoChunks Heap.empty)
        (mainThread [⟨"a.lua", true, false⟩, ⟨"b.lua", false, false⟩] ++ wholeThread 1 16 ++ wholeThread 2 12) := by
  have seen : (run App.step (App.begin twoChunks Heap.empty) (mainThread [⟨"a.lua", true, false⟩, ⟨"b.lua", false, false⟩] ++
      wholeThread 1 16 ++ wholeThread 2 12)).map
      (fun app => (app.ended, (List.range 3).map app.stage, app.workers.length)) =
      some (none, [.finished, .finished, .finished], 3) := by decide
  obtain ⟨reached, ends, facts⟩ := Option.map_eq_some_iff.mp seen
  simp only [Prod.mk.injEq] at facts
  obtain ⟨running, stages, workers⟩ := facts
  have quiet : ∀ i < reached.workers.length, (reached.stage i).inWindow = false := by
    intro i known
    have member : reached.stage i ∈ (List.range 3).map reached.stage :=
      List.mem_map_of_mem (List.mem_range.mpr (workers ▸ known))
    rw [stages] at member
    obtain now : reached.stage i = .finished := by simpa using member
    simp [now, Stage.inWindow]
  exact ⟨reached, ends, (scripts_safe_iff twoChunks _ reached ends).2 quiet (by simp [running])⟩

/-- On its way to the assignment a thread cannot be stopped. -/
theorem Sound.goes_on (sound : app.Sound) {i : Nat} {init : WorkerInit} (other : i ≠ 0) (worker : app.workers[i]? = some init)
    (created : app.stage i ≠ .created) (early : (app.stage i).rank ≤ 7) :
    ∃ next, app.advance i init = some next ∧ (next.stage i).rank ≤ 8 := by
  obtain ⟨control, clearing, memory⟩ := sound
  have known := (List.getElem?_eq_some_iff.mp worker).1
  have has : app.scripts "init.lua" ≠ none := (memory.keys _).mpr (control.others (by omega))
  obtain ⟨entry, found⟩ := Option.ne_none_iff_exists'.mp has
  rw [App.advance]
  cases stage : app.stage i with
  | created => exact absurd stage created
  | compileInit =>
      have cached : app.compileScript "init.lua" = some (app, true) := by rw [App.compileScript, found]
      simp [cached, Stage.rank]
  | compileScript =>
      obtain ⟨mid, added, compiled, _⟩ := compileScript_compiles app init.script
      cases start : init.isInit <;> simp [compiled, Stage.rank]
  | find own =>
      cases own with
      | true => simp [stage, Stage.rank] at early
      | false => simp [WorkerInit.file, found, Stage.rank]
  | load own =>
      cases own with
      | true => simp [stage, Stage.rank] at early
      | false => simp [WorkerInit.file, found, Stage.rank]
  | read own data len =>
      obtain ⟨code, chars, _⟩ := Sound.reads control memory worker stage
      cases own with
      | true => simp [stage, Stage.rank] at early
      | false => simp [chars, App.goto, Stage.rank]
  | running own =>
      cases own with
      | true => simp [stage, Stage.rank] at early
      | false => simp [Stage.afterRun, Stage.rank]
  | newBlock => simp [Stage.rank]
  | _ => simp [stage, Stage.rank] at early

/-- What is the same after the steps of one thread. -/
structure Apart (app : App) (i : Nat) (next : App) : Prop where
  sound : next.Sound
  ended : next.ended = none
  workers : next.workers = app.workers
  others : ∀ j, j ≠ i → next.stage j = app.stage j

theorem Sound.one_step (sound : app.Sound) (running : app.ended = none) {i : Nat} (other : i ≠ 0)
    (known : i < app.workers.length) (finished : app.stage 0 = .finished) (early : (app.stage i).rank ≤ 7) :
    ∃ event next, app.step event = some next ∧ app.Apart i next ∧ (app.stage i).rank < (next.stage i).rank ∧
      (next.stage i).rank ≤ 8 := by
  by_cases created : app.stage i = .created
  · have taken := step_start running other known created finished
    refine ⟨.start i, _, taken, ⟨sound.step taken, running, rfl, fun j apart => goto_other app _ apart⟩, ?_, ?_⟩
    · simp [created, Stage.rank]
    · simp [Stage.rank]
  · obtain ⟨init, worker⟩ : ∃ init, app.workers[i]? = some init := ⟨_, List.getElem?_eq_getElem known⟩
    obtain ⟨next, taken, low⟩ := sound.goes_on other worker created early
    have step : app.step (.advance i) = some next := by rw [step_advance running, worker, Option.bind_some, taken]
    rcases sound.advance running worker taken with ⟨_, r, address, deleting, _⟩ | ⟨after, effect⟩
    · simp [deleting, Stage.rank] at early
    · exact ⟨.advance i, next, step, ⟨after, effect.ended, effect.workers, effect.others⟩, effect.rank, low⟩

theorem readOld_of_rank {stage : Stage} (rank : stage.rank = 8) : ∃ r, stage = .readOld r := by
  cases stage with
  | readOld r => exact ⟨r, rfl⟩
  | find own | load own | running own => cases own <;> simp [Stage.rank] at rank
  | read own data len => cases own <;> simp [Stage.rank] at rank
  | _ => simp [Stage.rank] at rank

/-- A thread can go on alone until it is about to delete the old block. -/
theorem Sound.approaches (sound : app.Sound) (running : app.ended = none) {i : Nat} (other : i ≠ 0)
    (known : i < app.workers.length) (finished : app.stage 0 = .finished) (early : (app.stage i).rank ≤ 8) :
    ∃ events next, run App.step app events = some next ∧ app.Apart i next ∧
      ∃ r address, next.stage i = .deleteOld r (some address) := by
  -- the rank goes up with every step
  induction left : 8 - (app.stage i).rank using Nat.strong_induction_on generalizing app with
  | _ left' ih =>
      by_cases last : (app.stage i).rank = 8
      · obtain ⟨r, reading⟩ := readOld_of_rank last
        obtain ⟨init, worker⟩ : ∃ init, app.workers[i]? = some init := ⟨_, List.getElem?_eq_getElem known⟩
        obtain ⟨entry, address, _, _, _, captures⟩ := sound.captures reading init
        have taken : app.step (.advance i) = some (app.goto i (.deleteOld r (some address))) := by
          rw [step_advance running, worker, Option.bind_some, captures]
        exact ⟨[.advance i], _, by rw [run, taken]; rfl,
          ⟨sound.step taken, running, rfl, fun j apart => goto_other app _ apart⟩, r, address, goto_self ..⟩
      · obtain ⟨event, next, taken, apart, rank, low⟩ := sound.one_step running other known finished (by omega)
        have first : next.stage 0 = .finished := (apart.others 0 (Ne.symm other)).trans finished
        obtain ⟨events, reached, ran, rest, deleting⟩ := ih (8 - (next.stage i).rank) (by omega) apart.sound apart.ended
          (by rwa [apart.workers]) first low rfl
        refine ⟨event :: events, reached, by rw [run, taken, Option.bind_some, ran], ?_, deleting⟩
        exact ⟨rest.sound, rest.ended, rest.workers.trans apart.workers,
          fun j away => (rest.others j away).trans (apart.others j away)⟩

theorem step_faults {i r address : Nat} (running : app.ended = none) (known : i < app.workers.length)
    (deleting : app.stage i = .deleteOld r (some address)) (missing : app.heap.blocks address = none) :
    app.step (.advance i) = some (app.endWith .undefined) := by
  have failed : app.heap.free address = none := Heap.put_missing none missing
  rw [step_advance running, List.getElem?_eq_getElem known, Option.bind_some, App.advance]
  simp [deleting, failed]

/-- Two threads that are about to delete the old block do it both. -/
theorem Sound.both_delete (sound : app.Sound) (running : app.ended = none) {i j r s address address' : Nat} (different : i ≠ j)
    (first : i < app.workers.length) (second : j < app.workers.length)
    (firstDeletes : app.stage i = .deleteOld r (some address)) (secondDeletes : app.stage j = .deleteOld s (some address')) :
    ∃ events reached, run App.step app events = some reached ∧ reached.ended = some .undefined := by
  by_cases firstGone : app.heap.blocks address = none
  · exact ⟨[.advance i], _, by rw [run, step_faults running first firstDeletes firstGone]; rfl, rfl⟩
  by_cases secondGone : app.heap.blocks address' = none
  · exact ⟨[.advance j], _, by rw [run, step_faults running second secondDeletes secondGone]; rfl, rfl⟩
  -- both blocks are there, so both are the one that the entry points to
  obtain ⟨control, clearing, memory⟩ := id sound
  obtain ⟨_, entry, found, place⟩ := memory.current firstDeletes firstGone
  obtain ⟨_, entry', found', place'⟩ := memory.current secondDeletes secondGone
  rw [found] at found'
  cases found'
  rw [place] at place'
  cases place'
  obtain ⟨init, worker⟩ : ∃ init, app.workers[i]? = some init := ⟨_, List.getElem?_eq_getElem first⟩
  obtain ⟨next, taken⟩ : ∃ next, app.advance i init = some next := by
    rw [App.advance]
    simp [firstDeletes]
  have step : app.step (.advance i) = some next := by rw [step_advance running, worker, Option.bind_some, taken]
  rcases sound.advance running worker taken with ⟨_, q, gone, deletes, missing⟩ | ⟨_, effect⟩
  · rw [firstDeletes] at deletes
    cases deletes
    exact absurd missing firstGone
  · have ended := step_faults effect.ended (by rwa [effect.workers])
      ((effect.others j (Ne.symm different)).trans secondDeletes) (effect.freed r address firstDeletes).2
    exact ⟨[.advance i, .advance j], _, by rw [run, step, Option.bind_some, run, ended]; rfl, rfl⟩

theorem overlap_reachable (files : String → Option Bytecode) (events : List AppEvent) (app : App)
    (ends : run App.step (App.begin files Heap.empty) events = some app) (running : app.ended = none)
    (finished : app.stage 0 = .finished) (i j : Nat) (different : i ≠ j) (first : i < app.workers.length)
    (second : j < app.workers.length) (firstEarly : (app.stage i).rank ≤ 8) (secondEarly : (app.stage j).rank ≤ 8) :
    ∃ more reached, run App.step app more = some reached ∧ reached.ended = some .undefined := by
  have elsewhere {k : Nat} (early : (app.stage k).rank ≤ 8) : k ≠ 0 := by
    intro main
    simp [main, finished, Stage.rank] at early
  have firstOther := elsewhere firstEarly
  obtain ⟨toFirst, middle, ranFirst, apart, r, address, deleting⟩ :=
    (run_sound ends).approaches running firstOther first finished firstEarly
  obtain ⟨toSecond, both, ranSecond, apartSecond, s, address', deletingSecond⟩ :=
    apart.sound.approaches apart.ended (elsewhere secondEarly) (by rwa [apart.workers])
      ((apart.others 0 (Ne.symm firstOther)).trans finished) (by rwa [apart.others j (Ne.symm different)])
  have workers : both.workers = app.workers := apartSecond.workers.trans apart.workers
  obtain ⟨last, reached, ran, ended⟩ := apartSecond.sound.both_delete apartSecond.ended different (by rwa [workers])
    (by rwa [workers]) ((apartSecond.others i different).trans deleting) deletingSecond
  refine ⟨toFirst ++ (toSecond ++ last), reached, ?_, ended⟩
  rw [run_append, ranFirst, Option.bind_some, run_append, ranSecond, Option.bind_some, ran]

theorem overlap_reachable_two :
    ∃ app more reached, run App.step (App.begin twoChunks Heap.empty)
        (mainThread [⟨"a.lua", true, false⟩, ⟨"b.lua", false, false⟩]) = some app ∧
      run App.step app more = some reached ∧ reached.ended = some .undefined := by
  have seen : (run App.step (App.begin twoChunks Heap.empty)
      (mainThread [⟨"a.lua", true, false⟩, ⟨"b.lua", false, false⟩])).map
      (fun app => (app.ended, app.stage 0, app.stage 1, app.stage 2, app.workers.length)) =
      some (none, .finished, .created, .created, 3) := by decide
  obtain ⟨app, ends, facts⟩ := Option.map_eq_some_iff.mp seen
  simp only [Prod.mk.injEq] at facts
  obtain ⟨running, main, first, second, workers⟩ := facts
  obtain ⟨more, reached, ran, ended⟩ := overlap_reachable twoChunks _ app ends running main 1 2 (by decide) (by omega)
    (by omega) (by simp [first, Stage.rank]) (by simp [second, Stage.rank])
  exact ⟨app, more, reached, ends, ran, ended⟩

end App

end Webapp.Scripts

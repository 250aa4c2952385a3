import Webapp.Scripts.Cycle

namespace Webapp.Scripts

open Webapp.Data Webapp.Strings

namespace App

variable {app next : App} {event : AppEvent}

/-- How often the code of `init.lua` was run in this cycle. -/
def initRuns (app : App) : Nat := app.loaded.countP fun load => decide (load.file = "init.lua" ∧ load.code ≠ [])

/-- What was loaded, and where the threads are that loaded it. -/
structure Logged (app : App) : Prop where
  texts : ∀ load ∈ app.loaded,
    if load.file = "init.lua" ∧ load.worker ≠ 0 then load.code = [] else (load.file, load.code) ∈ app.compiled
  past : ∀ load ∈ app.loaded, (Stage.running load.own).rank ≤ (app.stage load.worker).rank
  once : (app.loaded.map fun load => (load.worker, load.own)).Nodup
  first : ∀ load ∈ app.loaded, load.own = false → load.file = "init.lua"
  main : ∀ load ∈ app.loaded, load.worker = 0 → load.own = false
  created : 1 < app.workers.length ∨ app.stage 0 = .running false →
    ∃ load ∈ app.loaded, load.worker = 0 ∧ load.own = false

theorem Logged.begin (files : String → Option Bytecode) (heap : Heap (List UInt8)) : (App.begin files heap).Logged := by
  refine ⟨?_, ?_, ?_, ?_, ?_, ?_⟩ <;> simp [App.begin]

theorem Logged.stop (app : App) (heap : Heap (List UInt8)) : (app.stop heap).Logged := by
  refine ⟨?_, ?_, ?_, ?_, ?_, ?_⟩ <;> simp [App.stop, App.goto, App.begin]

theorem Logged.grows (logged : app.Logged) (grows : app.Grows next) : next.Logged := by
  refine ⟨?_, ?_, ?_, ?_, ?_, ?_⟩
  · intro load member
    rw [grows.loaded] at member
    have before := logged.texts load member
    split
    · rename_i emptied
      rwa [if_pos emptied] at before
    · rename_i other
      rw [if_neg other] at before
      exact grows.listed _ before
  · rw [grows.loaded, grows.stage]
    exact logged.past
  · rw [grows.loaded]
    exact logged.once
  · rw [grows.loaded]
    exact logged.first
  · rw [grows.loaded]
    exact logged.main
  · rw [grows.loaded, grows.workers, grows.stage]
    exact logged.created

/-- A thread that goes on has what it loaded behind it. -/
theorem Logged.advances (logged : app.Logged) (sound : app.Sound) {i : Nat} (effect : app.Effect i next) : next.Logged := by
  obtain ⟨control, clearing, memory⟩ := sound
  have later (j : Nat) : (app.stage j).rank ≤ (next.stage j).rank := by
    by_cases same : j = i
    · rw [same]
      exact Nat.le_of_lt effect.rank
    · rw [effect.others j same]
  have kept : ∀ load ∈ app.loaded,
      if load.file = "init.lua" ∧ load.worker ≠ 0 then load.code = [] else (load.file, load.code) ∈ next.compiled := by
    intro load member
    have before := logged.texts load member
    split
    · rename_i emptied
      rwa [if_pos emptied] at before
    · rename_i other
      rw [if_neg other] at before
      exact effect.listed _ before
  rcases effect.loads with ⟨same, quiet⟩ | ⟨own, data, len, code, init, reading, now, chars, worker, added⟩
  · refine ⟨?_, ?_, ?_, ?_, ?_, ?_⟩
    · rw [same]
      exact kept
    · intro load member
      rw [same] at member
      exact Nat.le_trans (logged.past load member) (later _)
    · rw [same]
      exact logged.once
    · rw [same]
      exact logged.first
    · rw [same]
      exact logged.main
    · rw [same, effect.workers]
      intro either
      refine logged.created (either.imp_right ?_)
      intro main
      rw [← effect.others 0 ?_, main]
      intro mine
      exact quiet false (mine ▸ main)
  · have rank : (app.stage i).rank < (Stage.running own).rank := by rw [← now]; exact effect.rank
    have mainOwn : i = 0 → own = false := by
      intro main
      have low := control.main.2
      rw [main] at reading
      rw [reading] at low
      cases own with
      | true => simp [Stage.rank] at low
      | false => rfl
    obtain ⟨code', chars', text⟩ := Sound.reads control memory worker reading
    rw [chars] at chars'
    cases chars'
    refine ⟨?_, ?_, ?_, ?_, ?_, ?_⟩
    · rw [added]
      intro load member
      rcases List.mem_append.mp member with before | new
      · exact kept load before
      · rw [List.mem_singleton.mp new]
        split
        · rename_i emptied
          rwa [if_pos emptied] at text
        · rename_i other
          rw [if_neg other] at text
          exact effect.listed _ text
    · rw [added]
      intro load member
      rcases List.mem_append.mp member with before | new
      · exact Nat.le_trans (logged.past load before) (later _)
      · rw [List.mem_singleton.mp new, now]
    · rw [added, List.map_append, List.map_singleton]
      refine List.nodup_append.mpr ⟨logged.once, List.nodup_singleton _, ?_⟩
      intro key before other new same
      obtain ⟨load, member, rfl⟩ := List.mem_map.mp before
      rw [List.mem_singleton.mp new] at same
      have past := logged.past load member
      simp only [Prod.mk.injEq] at same
      rw [same.1, same.2] at past
      omega
    · rw [added]
      intro load member
      rcases List.mem_append.mp member with before | new
      · exact logged.first load before
      · rw [List.mem_singleton.mp new]
        intro notOwn
        have notOwn : own = false := notOwn
        simp [WorkerInit.file, notOwn]
    · rw [added]
      intro load member
      rcases List.mem_append.mp member with before | new
      · exact logged.main load before
      · rw [List.mem_singleton.mp new]
        exact mainOwn
    · rw [added, effect.workers]
      intro either
      by_cases mine : i = 0
      · exact ⟨_, List.mem_append_right _ (List.mem_singleton_self _), mine, mainOwn mine⟩
      · rw [effect.others 0 (Ne.symm mine)] at either
        obtain ⟨load, member, facts⟩ := logged.created either
        exact ⟨load, List.mem_append_left _ member, facts⟩

theorem Logged.step (logged : app.Logged) (sound : app.Sound) (taken : app.step event = some next) : next.Logged := by
  cases sound.took (step_running taken) taken with
  | faults known deleting missing => exact { logged with }
  | advances after effect => exact logged.advances sound effect
  | grows after grows => exact logged.grows grows
  | creates main after => exact { logged with created := fun _ => logged.created (Or.inr main) }
  | @starts i other known created finished after =>
      have stage := goto_cases app i .compileInit
      refine { logged with past := ?_, created := ?_ }
      · intro load member
        have before := logged.past load member
        rcases stage load.worker with ⟨mine, now⟩ | ⟨_, same⟩
        · rw [mine, created] at before
          rw [now]
          exact Nat.le_trans before (Nat.zero_le _)
        · rwa [same]
      · intro either
        refine logged.created (either.imp_right ?_)
        intro main
        rwa [goto_other app _ (Ne.symm other)] at main
  | terminates finished sockets => exact { logged with }
  | restarts finished sockets empty => exact Logged.begin _ _
  | stops finished empty => exact Logged.stop app _

/-- The code of `init.lua` can only have come from the main thread, which loads it once. -/
theorem Logged.initRuns_le (logged : app.Logged) : app.initRuns ≤ 1 := by
  calc app.initRuns ≤ (app.loaded.map fun load => (load.worker, load.own)).countP (· == (0, false)) := by
        rw [List.countP_map]
        refine List.countP_mono_left ?_
        intro load member code
        simp only [ne_eq, decide_eq_true_eq] at code
        have main : load.worker = 0 := by
          by_contra other
          have text := logged.texts load member
          rw [if_pos ⟨code.1, other⟩] at text
          exact code.2 text
        simp [main, logged.main load member main]
    _ ≤ 1 := List.nodup_iff_count_le_one.mp logged.once _

theorem Logged.initRuns_pos (logged : app.Logged) (control : app.Control) (several : 1 < app.workers.length) :
    0 < app.initRuns := by
  obtain ⟨load, member, main, own⟩ := logged.created (Or.inl several)
  have text := logged.texts load member
  rw [if_neg (by simp [main])] at text
  refine List.countP_pos_iff.mpr ⟨load, member, ?_⟩
  simp [logged.first load member own, control.nonempty _ _ text]

theorem init_runs_once (files : String → Option Bytecode) (events : List AppEvent) (reached : App)
    (ends : run App.step (App.begin files Heap.empty) events = some reached) :
    (reached.compiled.map Prod.fst).Nodup ∧ (reached.loaded.map fun load => (load.worker, load.own)).Nodup ∧
      (∀ load ∈ reached.loaded,
        if load.file = "init.lua" ∧ load.worker ≠ 0 then load.code = [] else (load.file, load.code) ∈ reached.compiled) ∧
      reached.initRuns ≤ 1 ∧ (1 < reached.workers.length → reached.initRuns = 1) := by
  have holds : reached.Sound ∧ reached.Logged := by
    refine @run_preserves _ _ _ (fun app : App => app.Sound ∧ app.Logged) _ _ _ ?_ ?_ ends
    · exact ⟨begin_sound files fun _ => rfl, Logged.begin files Heap.empty⟩
    · intro app event next both taken
      exact ⟨both.1.step taken, both.2.step both.1 taken⟩
  obtain ⟨sound, logged⟩ := holds
  refine ⟨sound.control.once, logged.once, logged.texts, logged.initRuns_le, ?_⟩
  intro several
  exact Nat.le_antisymm logged.initRuns_le (logged.initRuns_pos sound.control several)

theorem init_runs_once_main :
    ∃ reached, run App.step (App.begin twoChunks Heap.empty) (mainThread [⟨"a.lua", true, false⟩] ++ wholeThread 1 16) =
        some reached ∧ reached.loaded = [⟨0, false, "init.lua", [0x1b, 0x4c, 0x4a]⟩, ⟨1, false, "init.lua", []⟩,
          ⟨1, true, "a.lua", [0x1b, 0x4c, 0x4a]⟩] ∧ reached.initRuns = 1 := by
  have seen : (run App.step (App.begin twoChunks Heap.empty) (mainThread [⟨"a.lua", true, false⟩] ++ wholeThread 1 16)).map
      (fun app => (app.loaded, app.workers.length)) =
      some ([⟨0, false, "init.lua", [0x1b, 0x4c, 0x4a]⟩, ⟨1, false, "init.lua", []⟩,
        ⟨1, true, "a.lua", [0x1b, 0x4c, 0x4a]⟩], 2) := by decide
  obtain ⟨reached, ends, facts⟩ := Option.map_eq_some_iff.mp seen
  simp only [Prod.mk.injEq] at facts
  obtain ⟨loaded, workers⟩ := facts
  have once := init_runs_once twoChunks _ reached ends
  exact ⟨reached, ends, loaded, once.2.2.2.2 (by omega)⟩

end App

end Webapp.Scripts

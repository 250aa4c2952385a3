import Webapp.Scripts.Control

namespace Webapp.Scripts

open Webapp.Data Webapp.Strings

/-! Who owns the blocks of the strings while threads empty the entry of `init.lua`.  The
entry has no block while a thread has deleted it and not yet stored the new one; that
new one belongs to the thread until then.
-/

inductive Owner where
  | entry (file : String)
  | pending (i : Nat)
deriving DecidableEq

namespace App

/-- `clearing` is the thread that has deleted the entry's block, if there is one. -/
def holds (app : App) (clearing : Option Nat) : Owner → Option Nat
  | .entry file => if file = "init.lua" ∧ clearing ≠ none then none else (app.scripts file).bind WebappStr.data
  | .pending i => (app.stage i).block

structure Memory (app : App) (clearing : Option Nat) : Prop where
  keys : ∀ file, app.scripts file ≠ none ↔ app.has file
  strings : ∀ file entry, app.scripts file = some entry → entry.allocated = true ∧ entry.data ≠ none
  texts : ∀ file code, (file, code) ∈ app.compiled → file ≠ "init.lua" ∨ (app.stage 0).rank ≤ 9 →
    ∃ address, app.scripts file = some ⟨some address, code.length, true⟩ ∧ app.heap.blocks address = some code
  zeroed : 12 ≤ (app.stage 0).rank → ∀ entry, app.scripts "init.lua" = some entry → entry.len = 0
  reads : ∀ i init own data len, app.workers[i]? = some init → app.stage i = .read own data len →
    if init.file own = "init.lua" ∧ i ≠ 0 then len = 0 else app.scripts (init.file own) = some ⟨data, len, true⟩
  captured : ∀ i r old, app.stage i = .deleteOld r old → ∃ address, old = some address ∧ address < app.heap.next ∧
    (app.heap.blocks address = none ∨ ∃ entry, app.scripts "init.lua" = some entry ∧ entry.data = some address)
  clears : ∀ i, (∃ r, app.stage i = .storeData r) ↔ clearing = some i
  dangling : clearing ≠ none → ∀ entry address, app.scripts "init.lua" = some entry → entry.data = some address →
    address < app.heap.next ∧ app.heap.blocks address = none
  owned : Owned app.heap (app.holds clearing)

variable {app : App} {clearing : Option Nat} {i : Nat} {dest : Stage}

theorem Memory.begin (files : String → Option Bytecode) {heap : Heap (List UInt8)}
    (empty : ∀ address, heap.blocks address = none) : (App.begin files heap).Memory none := by
  have stage (i : Nat) : (App.begin files heap).stage i = .compileInit ∨ (App.begin files heap).stage i = .created := by
    by_cases first : i = 0
    · exact Or.inl (by simp [App.begin, first])
    · exact Or.inr (by simp [App.begin, first])
  refine ⟨by simp [App.begin, has], by simp [App.begin], by simp [App.begin], by simp [App.begin], ?_, ?_, ?_, by simp, ?_⟩
  · intro i init own data len _ reading
    rcases stage i with now | now <;> simp [now] at reading
  · intro i r old deleting
    rcases stage i with now | now <;> simp [now] at deleting
  · intro i
    rcases stage i with now | now <;> simp [now]
  · refine Owned.nothing ?_ empty
    intro owner
    cases owner with
    | entry file => simp [holds, App.begin]
    | pending i => rcases stage i with now | now <;> simp [holds, now, Stage.block]

/-- What the entry of `init.lua` points to while it is not being cleared. -/
theorem holds_init {entry : WebappStr} {address : Nat}
    (found : app.scripts "init.lua" = some entry) (data : entry.data = some address) :
    app.holds none (.entry "init.lua") = some address := by
  simp [holds, found, data]

theorem Memory.bounded (memory : app.Memory clearing) {entry : WebappStr} {address : Nat}
    (found : app.scripts "init.lua" = some entry) (data : entry.data = some address) : address < app.heap.next := by
  by_cases calm : clearing = none
  · subst calm
    obtain ⟨block, there⟩ := Option.ne_none_iff_exists'.mp (memory.owned.live _ _ (holds_init found data))
    exact Heap.bounded there
  · exact (memory.dangling calm entry address found data).1

/-- A thread goes on without a change to any string. -/
theorem Memory.goto (memory : app.Memory clearing) (later : (app.stage i).rank ≤ dest.rank)
    (block : dest.block = (app.stage i).block) (before : ∀ r, app.stage i ≠ .storeData r) (after : ∀ r, dest ≠ .storeData r)
    (zeroed : i = 0 → 12 ≤ dest.rank → ∀ entry, app.scripts "init.lua" = some entry → entry.len = 0)
    (reads : ∀ init own data len, app.workers[i]? = some init → dest = .read own data len →
      if init.file own = "init.lua" ∧ i ≠ 0 then len = 0 else app.scripts (init.file own) = some ⟨data, len, true⟩)
    (captured : ∀ r old, dest = .deleteOld r old → ∃ entry address, app.scripts "init.lua" = some entry ∧
      entry.data = some address ∧ old = some address ∧ address < app.heap.next) : (app.goto i dest).Memory clearing := by
  have stage := goto_cases app i dest
  refine ⟨memory.keys, memory.strings, ?_, ?_, ?_, ?_, ?_, memory.dangling, ?_⟩
  · intro file code entry early
    refine memory.texts file code entry (early.imp_right ?_)
    intro low
    rcases stage 0 with ⟨mine, now⟩ | ⟨_, same⟩
    · rw [now] at low
      rw [mine]
      omega
    · rwa [same] at low
  · intro high
    rcases stage 0 with ⟨mine, now⟩ | ⟨_, same⟩
    · rw [now] at high
      exact zeroed mine.symm high
    · rw [same] at high
      exact memory.zeroed high
  · intro j init own data len worker reading
    rcases stage j with ⟨rfl, now⟩ | ⟨_, same⟩
    · rw [now] at reading
      exact reads init own data len worker reading
    · rw [same] at reading
      exact memory.reads j init own data len worker reading
  · intro j r old deleting
    rcases stage j with ⟨rfl, now⟩ | ⟨_, same⟩
    · rw [now] at deleting
      obtain ⟨entry, address, found, data, same, bounded⟩ := captured r old deleting
      exact ⟨address, same, bounded, Or.inr ⟨entry, found, data⟩⟩
    · rw [same] at deleting
      exact memory.captured j r old deleting
  · intro j
    rw [← memory.clears j]
    rcases stage j with ⟨rfl, now⟩ | ⟨_, same⟩
    · simp [before, after]
    · rw [same]
  · have same : (app.goto i dest).holds clearing = app.holds clearing := by
      funext owner
      cases owner with
      | entry file => rfl
      | pending j =>
          rcases stage j with ⟨rfl, now⟩ | ⟨_, same⟩
          · simp only [holds, now, block]
          · simp only [holds, same]
    rw [same]
    exact memory.owned

/-- A script that is compiled gets an entry of its own; that of `init.lua` is made by the
main thread before it has emptied it. -/
theorem Memory.emplace (memory : app.Memory clearing) {file : String} {code : Bytecode} {heap : Heap (List UInt8)} {address : Nat}
    (missing : app.scripts file = none) (fresh : app.heap.next ≤ address) (later : app.heap.next ≤ heap.next)
    (blocks : heap.blocks = Function.update app.heap.blocks address (some code.chunks.flatten))
    (early : file = "init.lua" → (app.stage 0).rank ≤ 9 ∧ clearing = none) :
    (app.emplace file code (heap, ⟨some address, code.chunks.flatten.length, true⟩)).Memory clearing := by
  have kept {name : String} {entry : WebappStr} (found : app.scripts name = some entry) :
      (app.emplace file code (heap, ⟨some address, code.chunks.flatten.length, true⟩)).scripts name = some entry := by
    rw [emplace_other _ _ _ ?_, found]
    intro same
    rw [same, missing] at found
    cases found
  have vacant : app.heap.blocks address = none := app.heap.fresh address fresh
  have inside {place : Nat} (bounded : place < app.heap.next) : heap.blocks place = app.heap.blocks place := by
    rw [blocks, Function.update_of_ne (by omega)]
  refine ⟨?_, ?_, ?_, ?_, ?_, ?_, memory.clears, ?_, ?_⟩
  · intro name
    by_cases same : name = file
    · simp [same, has, App.emplace]
    · rw [emplace_other _ _ _ same, memory.keys name]
      simp [has, App.emplace, same]
  · intro name entry found
    by_cases same : name = file
    · rw [same, emplace_self] at found
      cases found
      simp
    · rw [emplace_other _ _ _ same] at found
      exact memory.strings name entry found
  · intro name text entry early
    rcases List.mem_append.mp entry with before | now
    · obtain ⟨place, found, content⟩ := memory.texts name text before early
      refine ⟨place, kept found, ?_⟩
      rw [← content]
      exact inside (Heap.bounded content)
    · simp only [List.mem_singleton, Prod.mk.injEq] at now
      rw [now.1, now.2]
      exact ⟨address, Function.update_self .., by simp [App.emplace, blocks]⟩
  · intro high entry found
    by_cases same : "init.lua" = file
    · have low := (early same.symm).1
      have high : 12 ≤ (app.stage 0).rank := high
      omega
    · rw [emplace_other _ _ _ same] at found
      exact memory.zeroed high entry found
  · intro j init own data len worker reading
    have before := memory.reads j init own data len worker reading
    split
    · rename_i zero
      rwa [if_pos zero] at before
    · rename_i other
      rw [if_neg other] at before
      exact kept before
  · intro j r old deleting
    obtain ⟨place, same, bounded, state⟩ := memory.captured j r old deleting
    refine ⟨place, same, by simp only [App.emplace]; omega, ?_⟩
    rcases state with gone | ⟨entry, found, data⟩
    · exact Or.inl ((inside bounded).trans gone)
    · exact Or.inr ⟨entry, kept found, data⟩
  · intro busy entry place found data
    by_cases same : "init.lua" = file
    · exact absurd (early same.symm).2 busy
    · rw [emplace_other _ _ _ same] at found
      obtain ⟨bounded, gone⟩ := memory.dangling busy entry place found data
      exact ⟨by simp only [App.emplace]; omega, (inside bounded).trans gone⟩
  · have idle : app.holds clearing (.entry file) = none := by simp [holds, missing]
    have now : (app.emplace file code (heap, ⟨some address, code.chunks.flatten.length, true⟩)).holds clearing =
        Function.update (app.holds clearing) (.entry file) (some address) := by
      funext owner
      cases owner with
      | entry name =>
          by_cases same : name = file
          · rw [same, Function.update_self]
            have calm : ¬(file = "init.lua" ∧ clearing ≠ none) := by
              intro both
              exact both.2 (early both.1).2
            simp [holds, calm]
          · rw [Function.update_of_ne (by simpa using same)]
            simp [holds, emplace_other _ _ _ same]
      | pending j => rw [Function.update_of_ne (by simp)]; rfl
    rw [now]
    exact memory.owned.added vacant blocks idle

/-- `char* r = new char[other.len]` -/
theorem Memory.newBlock (memory : app.Memory clearing) (new : app.stage i = .newBlock) :
    (({ app with heap := app.heap.allocate [] } : App).goto i (.readOld app.heap.next)).Memory clearing := by
  have stage := goto_cases { app with heap := app.heap.allocate [] } i (.readOld app.heap.next)
  have kept {address : Nat} (bounded : address < app.heap.next) :
      (app.heap.allocate []).blocks address = app.heap.blocks address := Heap.allocate_other _ _ (by omega)
  refine ⟨memory.keys, memory.strings, ?_, ?_, ?_, ?_, ?_, ?_, ?_⟩
  · intro file code entry early
    obtain ⟨address, found, content⟩ := memory.texts file code entry (early.imp_right fun low => by
      rcases stage 0 with ⟨mine, _⟩ | ⟨_, same⟩
      · simp [mine, new, Stage.rank]
      · rwa [same] at low)
    exact ⟨address, found, Heap.allocate_found content⟩
  · intro high
    rcases stage 0 with ⟨_, now⟩ | ⟨_, same⟩
    · simp [now, Stage.rank] at high
    · rw [same] at high
      exact memory.zeroed high
  · intro j init own data len worker reading
    rcases stage j with ⟨_, now⟩ | ⟨_, same⟩
    · simp [now] at reading
    · rw [same] at reading
      exact memory.reads j init own data len worker reading
  · intro j r old deleting
    rcases stage j with ⟨_, now⟩ | ⟨_, same⟩
    · simp [now] at deleting
    · rw [same] at deleting
      obtain ⟨address, captured, bounded, state⟩ := memory.captured j r old deleting
      exact ⟨address, captured, Nat.lt_succ_of_lt bounded, state.imp_left fun gone => (kept bounded).trans gone⟩
  · intro j
    rw [← memory.clears j]
    rcases stage j with ⟨rfl, now⟩ | ⟨_, same⟩
    · simp [new]
    · rw [same]
  · intro busy entry address found data
    obtain ⟨bounded, gone⟩ := memory.dangling busy entry address found data
    exact ⟨Nat.lt_succ_of_lt bounded, (kept bounded).trans gone⟩
  · have now : (({ app with heap := app.heap.allocate [] } : App).goto i (.readOld app.heap.next)).holds clearing =
        Function.update (app.holds clearing) (.pending i) (some app.heap.next) := by
      funext owner
      cases owner with
      | entry file => rw [Function.update_of_ne (by simp)]; rfl
      | pending j =>
          rcases stage j with ⟨rfl, now⟩ | ⟨other, same⟩
          · simp [holds, Stage.block]
          · rw [Function.update_of_ne (by simpa using other)]
            simp only [holds, same]
    rw [now]
    exact memory.owned.allocated [] (by simp [holds, new, Stage.block])

/-- What is left of the captured block when a thread gets to delete it: the entry still
points to it, and nobody else has deleted it. -/
theorem Memory.current (memory : app.Memory clearing) {r address : Nat} (deleting : app.stage i = .deleteOld r (some address))
    (live : app.heap.blocks address ≠ none) :
    clearing = none ∧ ∃ entry, app.scripts "init.lua" = some entry ∧ entry.data = some address := by
  obtain ⟨captured, same, _, state⟩ := memory.captured i r _ deleting
  cases same
  rcases state with gone | ⟨entry, found, data⟩
  · exact absurd gone live
  · refine ⟨?_, entry, found, data⟩
    by_contra busy
    exact live (memory.dangling busy entry address found data).2

/-- `delete[] data` -/
theorem Memory.deleteOld (memory : app.Memory clearing) {r address : Nat} (deleting : app.stage i = .deleteOld r (some address))
    (late : i ≠ 0 → app.stage 0 = .finished) (live : app.heap.blocks address ≠ none) :
    ∃ heap, app.heap.free address = some heap ∧ heap.next = app.heap.next ∧
      heap.blocks = Function.update app.heap.blocks address none ∧
      (({ app with heap := heap } : App).goto i (.storeData r)).Memory (some i) := by
  obtain ⟨calm, entry, found, data⟩ := memory.current deleting live
  subst calm
  have held : app.holds none (.entry "init.lua") = some address := holds_init found data
  obtain ⟨heap, freed, blocks, owned⟩ := memory.owned.freed held
  have next : heap.next = app.heap.next := Heap.put_next freed
  refine ⟨heap, freed, next, blocks, ?_⟩
  have stage := goto_cases { app with heap := heap } i (.storeData r)
  have quiet (j : Nat) : ¬∃ r, app.stage j = .storeData r := by simp [memory.clears]
  have gone {place : Nat} (before : app.heap.blocks place = none) : heap.blocks place = none := by
    rw [blocks]
    by_cases here : place = address
    · rw [here, Function.update_self]
    · rw [Function.update_of_ne here, before]
  have passed : 9 < ((({ app with heap := heap } : App).goto i (.storeData r)).stage 0).rank := by
    rcases stage 0 with ⟨_, now⟩ | ⟨other, same⟩
    · simp [now, Stage.rank]
    · rw [same]
      simp [late (Ne.symm other), Stage.rank]
  refine ⟨memory.keys, memory.strings, ?_, ?_, ?_, ?_, ?_, ?_, ?_⟩
  · intro file code listed early
    have other : file ≠ "init.lua" := by
      rcases early with other | low
      · exact other
      · omega
    obtain ⟨place, has, content⟩ := memory.texts file code listed (Or.inl other)
    refine ⟨place, has, ?_⟩
    rw [goto_heap, blocks, Function.update_of_ne ?_, content]
    intro here
    have mine : app.holds none (.entry file) = some address := by
      rw [← here]
      simp [holds, has]
    have same := memory.owned.unique _ _ _ mine held
    exact other (by simpa using same)
  · intro high
    rcases stage 0 with ⟨_, now⟩ | ⟨_, same⟩
    · simp [now, Stage.rank] at high
    · rw [same] at high
      exact memory.zeroed high
  · intro j init own data len worker reading
    rcases stage j with ⟨_, now⟩ | ⟨_, same⟩
    · simp [now] at reading
    · rw [same] at reading
      exact memory.reads j init own data len worker reading
  · intro j r old deleting
    rcases stage j with ⟨_, now⟩ | ⟨_, same⟩
    · simp [now] at deleting
    · rw [same] at deleting
      obtain ⟨place, captured, bounded, state⟩ := memory.captured j r old deleting
      exact ⟨place, captured, by rwa [← next] at bounded, state.imp_left gone⟩
  · intro j
    rcases stage j with ⟨rfl, now⟩ | ⟨other, same⟩
    · simp
    · rw [same]
      have none := quiet j
      simp only [Option.some.injEq]
      exact ⟨fun there => absurd there none, fun mine => absurd mine.symm other⟩
  · intro _ entry' place found' data'
    have found' : app.scripts "init.lua" = some entry' := found'
    rw [found] at found'
    cases found'
    rw [data] at data'
    cases data'
    obtain ⟨block, there⟩ := Option.ne_none_iff_exists'.mp live
    have bounded := Heap.bounded there
    exact ⟨by rwa [← next] at bounded, by rw [goto_heap, blocks, Function.update_self]⟩
  · have now : (({ app with heap := heap } : App).goto i (.storeData r)).holds (some i) =
        Function.update (app.holds none) (.entry "init.lua") none := by
      funext owner
      cases owner with
      | entry file =>
          by_cases init : file = "init.lua"
          · simp [init, holds]
          · rw [Function.update_of_ne (by simpa using init)]
            simp [holds, init, App.goto]
      | pending j =>
          rw [Function.update_of_ne (by simp)]
          rcases stage j with ⟨rfl, now⟩ | ⟨_, same⟩
          · simp [holds, Stage.block, deleting]
          · simp only [holds, same]
    rw [now]
    exact owned

@[simp] theorem withEntry_self (app : App) (entry : WebappStr) : (app.withEntry entry).scripts "init.lua" = some entry := by
  simp [withEntry]

@[simp] theorem withEntry_stage (app : App) (entry : WebappStr) : (app.withEntry entry).stage = app.stage := rfl

theorem withEntry_other (app : App) (entry : WebappStr) {file : String} (other : file ≠ "init.lua") :
    (app.withEntry entry).scripts file = app.scripts file := Function.update_of_ne other ..

theorem withEntry_same {entry : WebappStr} (found : app.scripts "init.lua" = some entry) : app.withEntry entry = app := by
  rw [withEntry, ← found, Function.update_eq_self]

theorem Memory.keys_withEntry (memory : app.Memory clearing) {entry : WebappStr} (changed : WebappStr)
    (found : app.scripts "init.lua" = some entry) (file : String) :
    (app.withEntry changed).scripts file ≠ none ↔ (app.withEntry changed).has file := by
  have before := memory.keys file
  by_cases init : file = "init.lua"
  · rw [init] at before ⊢
    rw [withEntry_self, ← show app.has "init.lua" ↔ (app.withEntry changed).has "init.lua" from Iff.rfl, ← before, found]
    simp
  · rw [withEntry_other app changed init]
    exact before

/-- `data = r` -/
theorem Memory.storeData (memory : app.Memory clearing) {r : Nat} (storing : app.stage i = .storeData r)
    (late : i ≠ 0 → app.stage 0 = .finished) {entry : WebappStr} (found : app.scripts "init.lua" = some entry) :
    ((app.withEntry { entry with data := some r }).goto i .storeLen).Memory none := by
  have busy : clearing = some i := (memory.clears i).mp ⟨r, storing⟩
  subst busy
  have stage := goto_cases (app.withEntry { entry with data := some r }) i .storeLen
  have passed : 9 < (((app.withEntry { entry with data := some r }).goto i .storeLen).stage 0).rank := by
    rcases stage 0 with ⟨_, now⟩ | ⟨other, same⟩
    · simp [now, Stage.rank]
    · rw [same, withEntry_stage, late (Ne.symm other)]
      simp [Stage.rank]
  refine ⟨memory.keys_withEntry _ found, ?_, ?_, ?_, ?_, ?_, ?_, ?_, ?_⟩
  · intro file other has
    by_cases init : file = "init.lua"
    · rw [init] at has
      cases (withEntry_self app _).symm.trans has
      exact ⟨(memory.strings _ entry found).1, by simp⟩
    · exact memory.strings file other ((withEntry_other app _ init).symm.trans has)
  · intro file code listed early
    have init : file ≠ "init.lua" := by
      rcases early with other | low
      · exact other
      · omega
    obtain ⟨address, has, content⟩ := memory.texts file code listed (Or.inl init)
    exact ⟨address, (withEntry_other app _ init).trans has, content⟩
  · intro high other has
    cases (withEntry_self app _).symm.trans has
    rcases stage 0 with ⟨_, now⟩ | ⟨_, same⟩
    · simp [now, Stage.rank] at high
    · rw [same] at high
      exact memory.zeroed high entry found
  · intro j init own data len worker reading
    rcases stage j with ⟨_, now⟩ | ⟨apart, same⟩
    · simp [now] at reading
    · have before := memory.reads j init own data len worker (same.symm.trans reading)
      split
      · rename_i zero
        rwa [if_pos zero] at before
      · rename_i other
        rw [if_neg other] at before
        refine (withEntry_other app _ ?_).trans before
        intro file
        have main : j = 0 := by
          by_contra elsewhere
          exact other ⟨file, elsewhere⟩
        have finished := late (by rw [← main]; exact Ne.symm apart)
        rw [same, main, withEntry_stage, finished] at reading
        cases reading
  · intro j s old deleting
    rcases stage j with ⟨_, now⟩ | ⟨_, same⟩
    · simp [now] at deleting
    · obtain ⟨place, captured, bounded, state⟩ := memory.captured j s old (same.symm.trans deleting)
      refine ⟨place, captured, bounded, Or.inl ?_⟩
      rcases state with gone | ⟨other, has, data⟩
      · exact gone
      · exact (memory.dangling (by simp) other place has data).2
  · intro j
    rcases stage j with ⟨rfl, now⟩ | ⟨other, same⟩
    · simp
    · have before := memory.clears j
      rw [same, withEntry_stage, before]
      simpa using Ne.symm other
  · intro quiet
    exact absurd rfl quiet
  · have held : app.holds (some i) (.pending i) = some r := by simp [holds, storing, Stage.block]
    have idle : app.holds (some i) (.entry "init.lua") = none := by simp [holds]
    have now : ((app.withEntry { entry with data := some r }).goto i .storeLen).holds none =
        Function.update (Function.update (app.holds (some i)) (.pending i) none) (.entry "init.lua") (some r) := by
      funext owner
      cases owner with
      | entry file =>
          by_cases init : file = "init.lua"
          · rw [init, Function.update_self]
            simp [holds, App.goto]
          · rw [Function.update_of_ne (by simpa using init), Function.update_of_ne (by simp)]
            simp [holds, init, App.goto, withEntry_other]
      | pending j =>
          rw [Function.update_of_ne (by simp)]
          rcases stage j with ⟨rfl, now⟩ | ⟨other, same⟩
          · simp [holds, Stage.block]
          · rw [Function.update_of_ne (by simpa using other)]
            simp only [holds, same]
            rfl
    rw [now]
    exact memory.owned.moved held idle

/-- `len = other.len` -/
theorem Memory.storeLen (memory : app.Memory clearing) (late : app.stage 0 = .storeLen ∨ app.stage 0 = .finished)
    {entry : WebappStr} (found : app.scripts "init.lua" = some entry) : (app.withEntry { entry with len := 0 }).Memory clearing := by
  have same {other : WebappStr} (has : (app.withEntry { entry with len := 0 }).scripts "init.lua" = some other) :
      other = { entry with len := 0 } := by
    rw [withEntry_self] at has
    exact (Option.some.inj has).symm
  refine ⟨memory.keys_withEntry _ found, ?_, ?_, ?_, ?_, ?_, memory.clears, ?_, ?_⟩
  · intro file other has
    by_cases init : file = "init.lua"
    · rw [init] at has
      rw [same has]
      exact memory.strings _ entry found
    · exact memory.strings file other ((withEntry_other app _ init).symm.trans has)
  · intro file code listed early
    have init : file ≠ "init.lua" := by
      rcases early with other | low
      · exact other
      · have low : (app.stage 0).rank ≤ 9 := low
        rcases late with now | now <;> simp [now, Stage.rank] at low
    obtain ⟨address, has, content⟩ := memory.texts file code listed (Or.inl init)
    exact ⟨address, (withEntry_other app _ init).trans has, content⟩
  · intro _ other has
    rw [same has]
  · intro j init own data len worker reading
    have reading : app.stage j = .read own data len := reading
    have before := memory.reads j init own data len worker reading
    split
    · rename_i zero
      rwa [if_pos zero] at before
    · rename_i other
      rw [if_neg other] at before
      refine (withEntry_other app _ ?_).trans before
      intro file
      have main : j = 0 := by
        by_contra elsewhere
        exact other ⟨file, elsewhere⟩
      rw [main] at reading
      rcases late with now | now <;> simp [now] at reading
  · intro j r old deleting
    obtain ⟨place, captured, bounded, state⟩ := memory.captured j r old deleting
    refine ⟨place, captured, bounded, state.imp_right ?_⟩
    intro current
    obtain ⟨other, has, data⟩ := current
    rw [found] at has
    cases has
    exact ⟨{ entry with len := 0 }, withEntry_self .., data⟩
  · intro busy other place has data
    rw [same has] at data
    exact memory.dangling busy entry place found data
  · have now : (app.withEntry { entry with len := 0 }).holds clearing = app.holds clearing := by
      funext owner
      cases owner with
      | entry file =>
          by_cases init : file = "init.lua"
          · simp [holds, init, found]
          · simp [holds, withEntry_other app _ init]
      | pending j => rfl
    rw [now]
    exact memory.owned

end App

end Webapp.Scripts

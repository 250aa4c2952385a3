import Webapp.Databases.Backends
import Webapp.Databases.Resources

namespace Webapp.Databases

open Webapp.Data

/-! The whole life of a query: its calls and the destructor. -/

section

variable {L : Type} {lib : Library L} {db : Database}

theorem Query.given_holds (query : Query) (inputs : Inputs) : (query.given inputs).holds = query.holds := rfl

def Query.called (lib : Library L) (db : Database) : Query → L → List Inputs → Query
  | query, _, [] => query
  | query, library, inputs :: calls =>
      let after := (query.given inputs).process lib db library
      after.1.called lib db after.2 calls

/-- The lifetime ends with what the last call left and the destructor does not
release. -/
theorem Query.lifetime_leads (lib : Library L) {query : Query} (sound : query.Sound db) (library : L) (calls : List Inputs) :
    (query.called lib db library calls).Sound db ∧
      Leads query.holds (query.lifetime lib db library calls) fun resource =>
        (query.called lib db library calls).holds resource &&
          !decide (resource ∈ [Resource.description, .row] ++ statementResources db) := by
  induction calls generalizing query library with
  | nil => exact ⟨sound, Leads.releases statementResources_nodup query.holds⟩
  | cons inputs calls ih =>
      have given : Moves db query [] (query.given inputs) := Moves.same (query.given_holds inputs)
      have moves := given.append ((query.given inputs).process_moves lib db library)
      obtain ⟨soundAfter, leads⟩ := ih (moves.sound sound) ((query.given inputs).process lib db library).2
      exact ⟨soundAfter, (moves.leads sound).append leads⟩

theorem Query.called_output {query : Query} (held : query.bindOutput = true) (library : L) (calls : List Inputs) :
    (query.called lib db library calls).bindOutput = true := by
  induction calls generalizing query library with
  | nil => exact held
  | cons inputs calls ih =>
      have moves := (query.given inputs).process_moves lib db library
      exact ih (moves.output held) _

theorem Query.called_finished {query : Query} (finished : query.status = .finished) (library : L)
    (calls : List Inputs) : (query.called lib db library calls).bindOutput = query.bindOutput := by
  induction calls generalizing query library with
  | nil => rfl
  | cons inputs calls ih =>
      have given : (query.given inputs).status = .finished := finished
      rw [called, process_finished lib db given library]
      exact ih given library

theorem Query.fresh_sound (db : Database) (dbq : List UInt8) (params : List (List UInt8)) (desc : Bool) :
    (Query.fresh dbq params desc).Sound db := ⟨rfl, fun _ => rfl, fun _ => ⟨rfl, rfl, rfl, rfl⟩⟩

/-- Only the output binding can be left. -/
theorem Query.lifetime_balanced_iff (dbq : List UInt8) (params : List (List UInt8)) (desc : Bool) (library : L)
    (calls : List Inputs) :
    Balanced ((Query.fresh dbq params desc).lifetime lib db library calls) ↔
      ((Query.fresh dbq params desc).called lib db library calls).bindOutput = false := by
  obtain ⟨sound, leads⟩ := lifetime_leads lib (fresh_sound db dbq params desc) library calls
  have nothing : (Query.fresh dbq params desc).holds = fun _ => false := by
    funext resource
    cases resource <;> rfl
  rw [nothing] at leads
  generalize (Query.fresh dbq params desc).called lib db library calls = last at sound leads ⊢
  constructor
  · intro balanced
    have left := congrFun (leads.unique balanced) .bindOutput
    have kept : Resource.bindOutput ∉ [Resource.description, .row] ++ statementResources db := by
      rw [statementResources]
      cases db.dbType <;> decide
    simp only [kept, decide_false, Bool.not_false, Bool.and_true] at left
    exact left
  · intro released
    have none : (fun resource => last.holds resource &&
        !decide (resource ∈ [Resource.description, .row] ++ statementResources db)) = fun _ => false := by
      funext resource
      rw [statementResources]
      cases type : db.dbType with
      | mysql => cases resource <;> simp [Query.holds, released]
      | _ =>
          obtain ⟨metadata, sizes, lengths, _⟩ := sound.foreign (by simp [type])
          have params : last.bindParams = false := sound.paired.symm.trans sizes
          cases resource <;> simp [Query.holds, metadata, sizes, params, lengths, released]
    rw [none] at leads
    exact leads

/-! Whether the first call on MySQL gets as far as the output. -/

def boundParams (lib : Library L) (params : List (List UInt8)) (library : L) : L × Nat :=
  if params.length = 0 then (library, 0)
  else lib.mysqlStmtBindParam (lib.allocate (lib.allocate library .sizeArr) .bindParams) params

/-- The statement is initialised, takes its parameters, has columns and is executed. -/
def ReachesOutput (lib : Library L) (inputs : Inputs) (library : L) : Prop :=
  let initialised := lib.mysqlStmtInit library
  let bound := boundParams lib inputs.params (lib.mysqlStmtPrepare initialised.1 inputs.dbq).1
  let metadata := lib.mysqlStmtResultMetadata bound.1
  initialised.2 = true ∧ bound.2 = 0 ∧ metadata.2 = true ∧ lib.mysqlNumFields metadata.1 ≠ 0 ∧
    (lib.mysqlStmtExecute metadata.1).2 = 0

structure Query.Blank (query : Query) : Prop where
  status : query.status = .init
  sizeArr : query.sizeArr = false
  prepareMetaResult : query.prepareMetaResult = false
  columnCount : query.columnCount = 0
  bindOutput : query.bindOutput = false

theorem Running.bindParameters_blank {connected : Bool} (run : Running L) (blank : run.query.Blank) :
    let bound := boundParams lib run.query.params run.library
    (bound.2 = 0 ∧ ∃ after, run.bindParameters lib ⟨.mysql, connected⟩ = .ok after ∧ after.library = bound.1 ∧
      after.query.status = .init ∧ after.query.prepareMetaResult = false ∧ after.query.columnCount = 0 ∧
      after.query.bindOutput = false) ∨
    (bound.2 ≠ 0 ∧ ∃ after, run.bindParameters lib ⟨.mysql, connected⟩ = .error after ∧
      after.query.bindOutput = false) := by
  have unbound : ¬ (run.query.sizeArr && run.query.bindParams) = true := by simp [blank.sizeArr]
  simp only [bindParameters, if_neg unbound, boundParams]
  by_cases empty : run.query.params.length = 0
  · simp only [if_pos empty]
    exact Or.inl ⟨trivial, run, rfl, rfl, blank.status, blank.prepareMetaResult, blank.columnCount, blank.bindOutput⟩
  · simp only [if_neg empty]
    by_cases succeeded : (lib.mysqlStmtBindParam
        (lib.allocate (lib.allocate run.library .sizeArr) .bindParams) run.query.params).2 = 0
    · simp only [if_pos succeeded]
      exact Or.inl ⟨succeeded, _, rfl, rfl, blank.status, blank.prepareMetaResult, blank.columnCount, blank.bindOutput⟩
    · simp only [if_neg succeeded]
      exact Or.inr ⟨succeeded, _, rfl, blank.bindOutput⟩

theorem Running.execute_blank (lib : Library L) (connected : Bool) {run : Running L} (status : run.query.status = .init)
    (undescribed : run.query.prepareMetaResult = false) (uncounted : run.query.columnCount = 0)
    (missing : run.query.bindOutput = false) :
    let metadata := lib.mysqlStmtResultMetadata run.library
    let executes := metadata.2 = true ∧ lib.mysqlNumFields metadata.1 ≠ 0 ∧ (lib.mysqlStmtExecute metadata.1).2 = 0
    (executes ∧ ∃ after, run.execute lib ⟨.mysql, connected⟩ = .ok after) ∨
    (¬ executes ∧ ∃ after, run.execute lib ⟨.mysql, connected⟩ = .error after ∧ after.query.bindOutput = false) := by
  intro metadata executes
  have library : (run.describe lib).library = metadata.1 := by
    simp only [describe, undescribed, Bool.false_eq_true, if_false]
    split <;> rfl
  have columns : (run.describe lib).query.columnCount = if metadata.2 then lib.mysqlNumFields metadata.1 else 0 := by
    simp only [describe, undescribed, Bool.false_eq_true, if_false]
    rw [apply_ite Running.query, apply_ite Query.columnCount, uncounted]
  have output : (run.describe lib).query.bindOutput = false := by
    simp only [describe, undescribed, Bool.false_eq_true, if_false]
    split <;> exact missing
  have executed : run.execute lib ⟨.mysql, connected⟩ = run.firstRun lib ⟨.mysql, connected⟩ := by
    rw [execute, status]
  obtain ⟨lastrowid, rowsAffected, first⟩ :
      ∃ lastrowid rowsAffected, run.firstRun lib ⟨.mysql, connected⟩ = _ := firstRun_mysql lib rfl run
  rw [executed, first, mysqlRun, library]
  by_cases succeeded : (lib.mysqlStmtExecute metadata.1).2 = 0
  · simp only [if_pos succeeded, Except.map, Except.bind, counted, columns]
    by_cases found : metadata.2 = true ∧ lib.mysqlNumFields metadata.1 ≠ 0
    · rw [if_pos found.1, if_neg found.2]
      exact Or.inl ⟨⟨found.1, found.2, succeeded⟩, _, rfl⟩
    · have none : (if metadata.2 then lib.mysqlNumFields metadata.1 else 0) = 0 := by
        by_contra some
        apply found
        cases given : metadata.2 <;> simp [given] at some ⊢
        exact some
      rw [if_pos none]
      exact Or.inr ⟨fun all => found ⟨all.1, all.2.1⟩, _, rfl, output⟩
  · simp only [if_neg succeeded, Except.map, Except.bind]
    exact Or.inr ⟨fun all => succeeded all.2.2, _, rfl, output⟩

theorem Running.mysqlPopulate_output (lib : Library L) (run : Running L) : (left (run.mysqlPopulate lib)).query.bindOutput = true := by
  have bound : (run.bindOutput lib).query.bindOutput = true := by
    rw [bindOutput]
    split
    · assumption
    · rfl
  rw [mysqlPopulate]
  split <;> exact bound

theorem Running.cleanup_output (lib : Library L) (db : Database) (run : Running L) :
    (run.cleanup lib db).query.bindOutput = run.query.bindOutput ∧ (run.cleanup lib db).query.status = .finished := by
  rw [cleanup]
  cases db.dbType <;> exact ⟨rfl, rfl⟩

theorem Query.process_jumps (lib : Library L) {query : Query} {library : L} {last : Running L}
    (unfinished : query.status ≠ .finished)
    (body : ({ query, library } : Running L).body lib ⟨.mysql, true⟩ = .error last) :
    (query.process lib ⟨.mysql, true⟩ library).1.bindOutput = last.query.bindOutput ∧
      (query.process lib ⟨.mysql, true⟩ library).1.status = .finished := by
  rw [process_error unfinished body]
  exact Running.cleanup_output lib ⟨.mysql, true⟩ last

theorem Query.process_binds (lib : Library L) {query : Query} {library : L} {prepared bound executed : Running L}
    (unfinished : query.status ≠ .finished)
    (prepares : ({ query, library } : Running L).prepare lib ⟨.mysql, true⟩ = .ok prepared)
    (binds : prepared.bindParameters lib ⟨.mysql, true⟩ = .ok bound)
    (executes : bound.execute lib ⟨.mysql, true⟩ = .ok executed) :
    (query.process lib ⟨.mysql, true⟩ library).1.bindOutput = true := by
  have body := Running.body_populate prepares binds executes
  have output := (executed.allocateRow lib).mysqlPopulate_output lib
  cases populated : (executed.allocateRow lib).mysqlPopulate lib with
  | ok last =>
      rw [populated] at output
      rw [process_ok unfinished (body.trans (congrArg _ populated))]
      exact output
  | error last =>
      rw [populated] at output
      exact (process_jumps lib unfinished (body.trans (congrArg _ populated))).1.trans output

theorem Query.process_fresh (lib : Library L) (inputs : Inputs) (library : L) :
    let after := (Query.fresh inputs.dbq inputs.params inputs.desc).process lib ⟨.mysql, true⟩ library
    (ReachesOutput lib inputs library ∧ after.1.bindOutput = true) ∨
      (¬ ReachesOutput lib inputs library ∧ after.1.bindOutput = false ∧ after.1.status = .finished) := by
  intro after
  have unfinished : (Query.fresh inputs.dbq inputs.params inputs.desc).status ≠ .finished :=
    (by decide : QueryStatus.init ≠ .finished)
  let run : Running L := { query := .fresh inputs.dbq inputs.params inputs.desc, library }
  have ends {last : Running L} (body : run.body lib ⟨.mysql, true⟩ = .error last)
      (missing : last.query.bindOutput = false) : after.1.bindOutput = false ∧ after.1.status = .finished := by
    rw [← missing]
    exact process_jumps lib unfinished body
  cases initialised : lib.mysqlStmtInit library with
  | mk opened succeeded =>
  cases succeeded with
  | false =>
      have body : run.body lib ⟨.mysql, true⟩ = .error { run with library := opened } := by
        simp only [Running.body, Running.prepare, run, Query.fresh, initialised, bind, Except.bind, Bool.false_eq_true,
          if_false]
      refine Or.inr ⟨fun reaches => ?_, ends body rfl⟩
      have opened := reaches.1
      rw [initialised] at opened
      cases opened
  | true =>
      let prepared : Running L :=
        { query := { run.query with mysqlStmt := true }, library := (lib.mysqlStmtPrepare opened inputs.dbq).1 }
      have prepares : run.prepare lib ⟨.mysql, true⟩ = .ok prepared := by
        simp only [Running.prepare, run, prepared, Query.fresh, initialised, Bool.false_eq_true, if_false]
      rcases Running.bindParameters_blank prepared ⟨rfl, rfl, rfl, rfl, rfl⟩ with
        ⟨bound, given, binds, library, status, undescribed, uncounted, missing⟩ | ⟨failed, last, binds, missing⟩
      · rcases Running.execute_blank lib true status undescribed uncounted missing with
          ⟨executes, executed, succeeds⟩ | ⟨fails, last, error, missing⟩
        · rw [library] at executes
          refine Or.inl ⟨?_, process_binds lib unfinished prepares binds succeeds⟩
          rw [ReachesOutput, initialised]
          exact ⟨rfl, bound, executes⟩
        · have body : run.body lib ⟨.mysql, true⟩ = .error last := by
            simp only [Running.body, prepares, binds, error, bind, Except.bind]
          refine Or.inr ⟨fun reaches => fails ?_, ends body missing⟩
          rw [ReachesOutput, initialised] at reaches
          rw [library]
          exact reaches.2.2
      · have body : run.body lib ⟨.mysql, true⟩ = .error last := by
          simp only [Running.body, prepares, binds, bind, Except.bind]
        refine Or.inr ⟨fun reaches => failed ?_, ends body missing⟩
        rw [ReachesOutput, initialised] at reaches
        exact reaches.2.1

theorem Query.called_fresh_iff (lib : Library L) (inputs : Inputs) (library : L) (calls : List Inputs) :
    let after := (Query.fresh inputs.dbq inputs.params inputs.desc).process lib ⟨.mysql, true⟩ library
    (after.1.called lib ⟨.mysql, true⟩ after.2 calls).bindOutput = false ↔ ¬ ReachesOutput lib inputs library := by
  intro after
  -- What the first call binds stays; a first call that binds nothing was the last one.
  rcases process_fresh lib inputs library with ⟨reaches, held⟩ | ⟨short, missing, finished⟩
  · rw [called_output held]
    exact iff_of_false (by decide) (not_not.mpr reaches)
  · rw [called_finished finished, missing]
    exact iff_of_true rfl short

theorem Query.process_unconnected (lib : Library L) {query : Query} (unfinished : query.status ≠ .finished)
    (missing : query.bindOutput = false) (known : db.dbType ≠ .unknown) (unconnected : db.connected = false)
    (library : L) :
    (query.process lib db library).1.bindOutput = false ∧ (query.process lib db library).1.status = .finished := by
  rw [process, if_neg unfinished]
  simp only [if_pos (show db.dbType ≠ .unknown ∧ db.connected = false from ⟨known, unconnected⟩)]
  have cleaned := Running.cleanup_output lib db { query, library }
  exact ⟨cleaned.1.trans missing, cleaned.2⟩

end

/-- Everything a query acquires is released exactly once and never used afterwards,
unless its first call on MySQL gets to the output: `bind_output` is never released. -/
theorem query_releases_iff {L : Type} (lib : Library L) (db : Database) (dbq : List UInt8) (params : List (List UInt8))
    (desc : Bool) (library : L) (calls : List Inputs) :
    Balanced ((Query.fresh dbq params desc).lifetime lib db library calls) ↔
      (db.dbType = .mysql → db.connected = true → ∀ first ∈ calls.head?, ¬ ReachesOutput lib first library) := by
  rw [Query.lifetime_balanced_iff]
  cases calls with
  | nil => exact iff_of_true rfl (by simp)
  | cons first calls =>
      have given : (Query.fresh dbq params desc).given first = .fresh first.dbq first.params first.desc := rfl
      by_cases type : db.dbType = .mysql
      · cases connected : db.connected with
        | true =>
            obtain rfl : db = ⟨.mysql, true⟩ := by
              obtain ⟨dbType, isConnected⟩ := db
              simp_all
            rw [Query.called, given]
            refine (Query.called_fresh_iff lib first library calls).trans ?_
            simp
        | false =>
            have known : db.dbType ≠ .unknown := by rw [type]; decide
            have unfinished : (Query.fresh first.dbq first.params first.desc).status ≠ .finished :=
              (by decide : QueryStatus.init ≠ .finished)
            obtain ⟨missing, finished⟩ := Query.process_unconnected lib unfinished rfl known connected library
            refine iff_of_true ?_ (by simp)
            rw [Query.called, given, Query.called_finished finished, missing]
      · obtain ⟨sound, _⟩ := Query.lifetime_leads lib (Query.fresh_sound db dbq params desc) library (first :: calls)
        exact iff_of_true (sound.foreign type).2.2.2 fun mysql => absurd mysql type

/-- One call for the row `1` on MySQL: the output binding is still there after the
destructor, and nothing else is. -/
theorem query_releases_oneRow :
    (run use (fun _ => false)
      ((Query.fresh [] [] false).lifetime oneRow.library ⟨.mysql, true⟩ ⟨0, none⟩ [⟨[], [], false⟩])).map
        (fun live => [Resource.sqliteStmt, .mysqlStmt, .prepareMetaResult, .sizeArr, .bindParams, .outSizeArr,
          .bindOutput, .row, .description].filter fun resource => live resource) =
      some [.bindOutput] := by
  decide

end Webapp.Databases

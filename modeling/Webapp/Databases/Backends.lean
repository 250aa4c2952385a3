import Webapp.Databases.Sqlite

namespace Webapp.Databases

/-! The rows of one statement through the two libraries. -/

/-- How often a statement was executed, and how many of its rows have been
delivered since; `none` when it is not running. -/
structure Cursor where
  executions : Nat
  position : Option Nat
deriving DecidableEq, Repr

/-- A statement that executes and yields rows of at least one column.  MySQL may
report any fetched row as truncated, in any of its executions. -/
structure Statement where
  columns : List (List UInt8)
  rows : List (List (List UInt8))
  described : 0 < columns.length
  shaped : ∀ row ∈ rows, row.length = columns.length
  truncated : Nat → Nat → Bool
  message : Cursor → Option (List UInt8)
  insertId : Cursor → Nat
  changes : Cursor → Nat

namespace Statement

def noData : Nat := 100

def dataTruncated : Nat := 101

def column (statement : Statement) (cursor : Cursor) (index : Nat) : Option (List UInt8) :=
  cursor.position.bind fun position => (statement.rows[position - 1]?).bind fun row => row[index]?

def advance (statement : Statement) (cursor : Cursor) (position : Nat) : Cursor × StepCode :=
  if position < statement.rows.length then ({ cursor with position := some (position + 1) }, .row)
  else ({ cursor with position := none }, .done)

/-- The first `sqlite3_step` executes the statement. -/
def sqliteStep (statement : Statement) (cursor : Cursor) : Cursor × StepCode :=
  match cursor.position with
  | none => statement.advance { cursor with executions := cursor.executions + 1 } 0
  | some position => statement.advance cursor position

def mysqlStmtFetch (statement : Statement) (cursor : Cursor) : Cursor × Nat :=
  match cursor.position with
  | none => (cursor, 1)
  | some position =>
      let next := statement.advance cursor position
      match next.2 with
      | .row => (next.1, if statement.truncated cursor.executions position then dataTruncated else 0)
      | _ => (next.1, noData)

def library (statement : Statement) : Library Cursor where
  allocate cursor _ := cursor
  free cursor _ := cursor
  sqlitePrepare cursor _ := (cursor, some true)
  sqliteBindText cursor _ _ := cursor
  sqliteStep := statement.sqliteStep
  sqliteErrmsg := statement.message
  sqliteColumnCount _ := statement.columns.length
  sqliteLastInsertRowid cursor := statement.insertId cursor
  sqliteChanges cursor := statement.changes cursor
  sqliteColumnName _ index := statement.columns.getD index []
  sqliteColumnText cursor index := (statement.column cursor index).getD []
  sqliteFinalize cursor := { cursor with position := none }
  mysqlStmtInit cursor := (cursor, true)
  mysqlStmtPrepare cursor _ := (cursor, 0)
  mysqlStmtBindParam cursor _ := (cursor, 0)
  mysqlStmtResultMetadata cursor := (cursor, true)
  mysqlNumFields _ := statement.columns.length
  mysqlFieldNames _ := statement.columns
  mysqlStmtExecute cursor := ({ executions := cursor.executions + 1, position := some 0 }, 0)
  mysqlStmtError := statement.message
  mysqlStmtInsertId := statement.insertId
  mysqlStmtAffectedRows := statement.changes
  mysqlStmtBindResult cursor := cursor
  mysqlStmtFetch := statement.mysqlStmtFetch
  mysqlStmtFetchColumn cursor index := (cursor, statement.column cursor index)
  mysqlFreeResult cursor := cursor
  mysqlStmtClose cursor := { cursor with position := none }

end Statement

section

variable (statement : Statement)

/-- The query has not been executed, or it has and knows its columns. -/
def Query.Prepared (query : Query) : Prop :=
  query.status = .init ∨ query.status = .started ∧ query.columnCount = statement.columns.length

theorem Query.Prepared.unfinished {query : Query} (prepared : query.Prepared statement) :
    query.status ≠ .finished := by
  rcases prepared with init | ⟨started, _⟩
  · rw [init]
    decide
  · rw [started]
    decide

theorem library_silent (cursor : Cursor) (memory : Memory) : statement.library.allocate cursor memory = cursor := rfl

/-- Binding changes nothing, so that a call on SQLite steps the statement from
where it stands. -/
theorem Query.Prepared.call {query : Query} (prepared : query.Prepared statement) {cursor next : Cursor} {code : StepCode}
    (stepped : statement.sqliteStep cursor = (next, code)) : SqliteCall statement.library query cursor next code := by
  have unbound (params : List (List UInt8 × Nat)) :
      params.foldl (fun library param => statement.library.sqliteBindText library (param.2 + 1) param.1) cursor =
        cursor := by
    induction params with
    | nil => rfl
    | cons param params ih => exact ih
  have bound : query.bound statement.library cursor = cursor := by
    rw [Query.bound, unbound, ite_self]
  refine ⟨prepared.unfinished statement, cursor, by rw [bound]; exact stepped, ?_⟩
  cases held : query.sqliteStmt with
  | true => exact Or.inl ⟨rfl, rfl⟩
  | false => exact Or.inr ⟨rfl, rfl⟩

theorem process_sqlite_row {query : Query} (prepared : query.Prepared statement) {cursor next : Cursor}
    (stepped : statement.sqliteStep cursor = (next, .row)) :
    let after := query.process statement.library ⟨.sqlite, true⟩ cursor
    after.1.status = .started ∧ after.1.columnCount = statement.columns.length ∧ after.2 = next ∧
      after.1.row = some ((List.range statement.columns.length).map fun index =>
        .text ((statement.column next index).getD [])) := by
  have columns : (query.stepped statement.library next).columnCount = statement.columns.length := by
    rcases prepared with init | ⟨started, columns⟩
    · simp only [Query.stepped, init]
      rfl
    · simp only [Query.stepped, started, columns]
  rw [(prepared.call statement stepped).row (library_silent statement)
    fun _ => Nat.pos_iff_ne_zero.mp statement.described, ← columns]
  exact ⟨rfl, rfl, rfl, rfl⟩

theorem cleanup_executions (run : Running Cursor) (db : Database) :
    (run.cleanup statement.library db).library.executions = run.library.executions := by
  have free (cursor : Cursor) (memory : Memory) : statement.library.free cursor memory = cursor := rfl
  have freeResult (cursor : Cursor) : statement.library.mysqlFreeResult cursor = cursor := rfl
  have close (cursor : Cursor) : (statement.library.mysqlStmtClose cursor).executions = cursor.executions := rfl
  have finalize (cursor : Cursor) : (statement.library.sqliteFinalize cursor).executions = cursor.executions := rfl
  simp only [Running.cleanup, free, freeResult, ite_self, apply_ite Cursor.executions, close, finalize]
  split <;> rfl

theorem process_sqlite_done {query : Query} (prepared : query.Prepared statement) {cursor next : Cursor}
    (stepped : statement.sqliteStep cursor = (next, .done)) :
    let after := query.process statement.library ⟨.sqlite, true⟩ cursor
    after.1.status = .finished ∧ after.2.executions = next.executions := by
  obtain ⟨run, library, _, _, processed⟩ := (prepared.call statement stepped).ends (library_silent statement)
    (Or.inl (by decide))
  rw [processed, ← library]
  exact ⟨rfl, cleanup_executions statement run ⟨.sqlite, true⟩⟩

theorem column_row {position : Nat} {row : List (List UInt8)} (found : statement.rows[position]? = some row)
    (executions : Nat) :
    ((List.range statement.columns.length).map fun index =>
      Cell.text ((statement.column ⟨executions, some (position + 1)⟩ index).getD [])) = row.map Cell.text := by
  have width : row.length = statement.columns.length := statement.shaped row (List.mem_of_getElem? found)
  apply List.ext_getElem
  · simp [width]
  · intro index left right
    have inside : index < row.length := by simpa using right
    simp [Statement.column, found, inside]

/-- Before the call that is to deliver the row at `position`. -/
structure Awaits (position : Nat) (query : Query) (cursor : Cursor) : Prop where
  prepared : query.Prepared statement
  stepped : statement.sqliteStep cursor = statement.advance ⟨1, cursor.position⟩ position

variable {statement} in
theorem Awaits.row {position : Nat} {query : Query} {cursor : Cursor} (awaits : Awaits statement position query cursor)
    {row : List (List UInt8)} (found : statement.rows[position]? = some row) :
    let after := query.process statement.library ⟨.sqlite, true⟩ cursor
    Awaits statement (position + 1) after.1 after.2 ∧ after.1.status = .started ∧
      after.1.row = some (row.map .text) ∧ after.2.executions = 1 := by
  intro after
  have inside : position < statement.rows.length := (List.getElem?_eq_some_iff.mp found).1
  have stepped : statement.sqliteStep cursor = (⟨1, some (position + 1)⟩, .row) := by
    rw [awaits.stepped, Statement.advance, if_pos inside]
  obtain ⟨started, columns, next, shown⟩ := process_sqlite_row statement awaits.prepared stepped
  rw [column_row statement found] at shown
  have ahead : after.2 = ⟨1, some (position + 1)⟩ := next
  refine ⟨⟨.inr ⟨started, columns⟩, ?_⟩, started, shown, ?_⟩
  · rw [ahead]
    rfl
  · rw [ahead]

variable {statement} in
theorem Awaits.done {position : Nat} {query : Query} {cursor : Cursor} (awaits : Awaits statement position query cursor)
    (none : statement.rows[position]? = none) :
    let after := query.process statement.library ⟨.sqlite, true⟩ cursor
    after.1.status = .finished ∧ after.2.executions = 1 := by
  have stepped : statement.sqliteStep cursor = (⟨1, .none⟩, .done) := by
    rw [awaits.stepped, Statement.advance, if_neg (Nat.not_lt.mpr (List.getElem?_eq_none_iff.mp none))]
  exact process_sqlite_done statement awaits.prepared stepped

theorem awaits_fresh (dbq : List UInt8) (params : List (List UInt8)) (desc : Bool) :
    Awaits statement 0 (.fresh dbq params desc) ⟨0, none⟩ := ⟨.inl rfl, rfl⟩

section

variable {statement} {query : Query} (awaits : Awaits statement 0 query ⟨0, none⟩)
include awaits

theorem awaits_selects {count : Nat} (within : count ≤ statement.rows.length) :
    let after := selects statement.library ⟨.sqlite, true⟩ count query ⟨0, none⟩
    Awaits statement count after.1 after.2 := by
  induction count with
  | zero => exact awaits
  | succ count ih =>
      have inside : count < statement.rows.length := within
      exact ((ih inside.le).row (List.getElem?_eq_getElem inside)).1

theorem selects_finished {count : Nat} (past : statement.rows.length ≤ count) :
    let after := selects statement.library ⟨.sqlite, true⟩ (count + 1) query ⟨0, none⟩
    after.1.status = .finished ∧ after.2.executions = 1 := by
  induction count, past using Nat.le_induction with
  | base => exact (awaits_selects awaits le_rfl).done (List.getElem?_eq_none le_rfl)
  | succ count past ih =>
      intro after
      have unchanged : after = selects statement.library ⟨.sqlite, true⟩ (count + 1) query ⟨0, none⟩ :=
        Query.process_finished _ _ ih.1 _
      rw [unchanged]
      exact ih

end

/-- What call number `count` shows: the row with that number while there is one,
and the end from then on, after one execution. -/
def Delivers (db : Database) (query : Query) (count : Nat) : Prop :=
  let after := selects statement.library db (count + 1) query ⟨0, none⟩
  (match statement.rows[count]? with
    | some row => after.1.status = .started ∧ after.1.row = some (row.map .text)
    | none => after.1.status = .finished) ∧
  after.2.executions = 1

theorem delivers_sqlite {query : Query} (awaits : Awaits statement 0 query ⟨0, none⟩) (count : Nat) :
    Delivers statement ⟨.sqlite, true⟩ query count := by
  rw [Delivers]
  cases found : statement.rows[count]? with
  | some row =>
      have inside : count < statement.rows.length := (List.getElem?_eq_some_iff.mp found).1
      obtain ⟨_, started, shown, executions⟩ := (awaits_selects awaits inside.le).row found
      exact ⟨⟨started, shown⟩, executions⟩
  | none => exact selects_finished awaits (List.getElem?_eq_none_iff.mp found)

theorem prepare_mysql (run : Running Cursor) :
    run.prepare statement.library ⟨.mysql, true⟩ =
      .ok { run with query := { run.query with mysqlStmt := true } } := by
  simp only [Running.prepare]
  split
  · rename_i prepared
    rw [← prepared]
  · rfl

theorem bindParameters_mysql (run : Running Cursor) :
    ∃ bound, run.bindParameters statement.library ⟨.mysql, true⟩ = .ok bound ∧
      bound.library = run.library ∧ bound.query.status = run.query.status := by
  simp only [Running.bindParameters]
  split
  · exact ⟨run, rfl, rfl, rfl⟩
  · split
    · exact ⟨run, rfl, rfl, rfl⟩
    · exact ⟨_, rfl, rfl, rfl⟩

theorem execute_mysql {run : Running Cursor} (unfinished : run.query.status ≠ .finished) :
    ∃ executed, run.execute statement.library ⟨.mysql, true⟩ = .ok executed ∧
      executed.library = ⟨run.library.executions + 1, some 0⟩ := by
  rw [Running.execute]
  cases status : run.query.status with
  | init =>
      -- the metadata is there afterwards, whether it was before or not
      cases held : run.query.prepareMetaResult <;> simp only [Running.firstRun, held, if_true] <;>
        exact ⟨_, if_neg (Nat.pos_iff_ne_zero.mp statement.described), rfl⟩
  | started => exact ⟨_, rfl, rfl⟩
  | finished => exact absurd status unfinished

theorem fetchColumns_library (cursor : Cursor) (cells : List Cell) (column : Nat) :
    (Running.fetchColumns statement.library cursor column cells).1 = cursor := by
  induction cells generalizing column with
  | nil => rfl
  | cons cell cells ih => exact ih (column + 1)

theorem body_mysql {query : Query} (unfinished : query.status ≠ .finished) (cursor : Cursor) :
    ∃ run : Running Cursor,
      ({ query, library := cursor } : Running Cursor).body statement.library ⟨.mysql, true⟩ =
        (run.mysqlPopulate statement.library).map
          (fun run => { run with query := { run.query with status := .started } }) ∧
      run.library = ⟨cursor.executions + 1, some 0⟩ := by
  let ready : Running Cursor := { query := { query with mysqlStmt := true }, library := cursor }
  obtain ⟨bound, binds, sameCursor, sameStatus⟩ := bindParameters_mysql statement ready
  have unfinishedBound : bound.query.status ≠ .finished := sameStatus ▸ unfinished
  obtain ⟨executed, result, library⟩ := execute_mysql statement unfinishedBound
  rw [sameCursor] at library
  refine ⟨executed.allocateRow statement.library, Running.body_populate (prepare_mysql statement _) binds result, ?_⟩
  rw [allocateRow_silent (library_silent statement)]
  exact library

theorem bindOutput_library (run : Running Cursor) :
    (run.bindOutput statement.library).library = run.library := by
  rw [Running.bindOutput]
  split <;> rfl

theorem mysqlStmtFetch_executions (cursor : Cursor) :
    (statement.mysqlStmtFetch cursor).1.executions = cursor.executions := by
  rcases cursor with ⟨executions, position⟩
  cases position with
  | none => rfl
  | some position =>
      simp only [Statement.mysqlStmtFetch, Statement.advance]
      by_cases inside : position < statement.rows.length
      · simp only [inside, if_true]
      · simp only [inside, if_false]

theorem mysqlStmtFetch_zero {executions : Nat}
    (fetched : (statement.mysqlStmtFetch ⟨executions, some 0⟩).2 = 0) : 0 < statement.rows.length := by
  by_contra empty
  simp [Statement.mysqlStmtFetch, Statement.advance, empty, Statement.noData] at fetched

/-- A call on MySQL: only a row that was fetched whole ends the query. -/
theorem process_mysql {query : Query} (unfinished : query.status ≠ .finished) (cursor : Cursor) :
    let after := query.process statement.library ⟨.mysql, true⟩ cursor
    after.2.executions = cursor.executions + 1 ∧
      (after.1.status = .started ∨ after.1.status = .finished ∧ 0 < statement.rows.length) := by
  obtain ⟨run, body, library⟩ := body_mysql statement unfinished cursor
  have fetched := mysqlStmtFetch_executions statement ⟨cursor.executions + 1, some 0⟩
  rw [Running.mysqlPopulate, bindOutput_library, library] at body
  by_cases whole : (statement.library.mysqlStmtFetch ⟨cursor.executions + 1, some 0⟩).2 = 0
  · rw [if_neg (not_not.mpr whole)] at body
    rw [Query.process_error unfinished body]
    refine ⟨?_, .inr ⟨rfl, mysqlStmtFetch_zero statement whole⟩⟩
    exact (cleanup_executions statement _ ⟨.mysql, true⟩).trans fetched
  · rw [if_pos whole] at body
    rw [Query.process_ok unfinished body]
    refine ⟨?_, .inl rfl⟩
    exact (congrArg Cursor.executions (fetchColumns_library statement _ _ 0)).trans fetched

/-- No statement is delivered by MySQL: a first call that goes on is followed by
a second execution, and one that ends the query has dropped a row. -/
theorem mysql_not_delivers {query : Query} (unfinished : query.status ≠ .finished) :
    ¬ ∀ count, Delivers statement ⟨.mysql, true⟩ query count := by
  intro delivers
  obtain ⟨once, status⟩ := process_mysql statement unfinished ⟨0, none⟩
  rcases status with started | ⟨finished, nonempty⟩
  · have unfinishedAfter : (query.process statement.library ⟨.mysql, true⟩ ⟨0, none⟩).1.status ≠ .finished := by
      rw [started]
      decide
    have twice := (process_mysql statement unfinishedAfter
      (query.process statement.library ⟨.mysql, true⟩ ⟨0, none⟩).2).1
    rw [once] at twice
    have executions : (selects statement.library ⟨.mysql, true⟩ 2 query ⟨0, none⟩).2.executions = 1 := (delivers 1).2
    exact absurd (twice.symm.trans executions) (by decide)
  · have shown := (delivers 0).1
    rw [List.getElem?_eq_getElem nonempty] at shown
    have started : (query.process statement.library ⟨.mysql, true⟩ ⟨0, none⟩).1.status = .started := shown.1
    rw [finished] at started
    exact absurd started (by decide)

/-- SQLite delivers the rows of every statement, MySQL those of none. -/
theorem backends_disagree (dbq : List UInt8) (params : List (List UInt8)) (desc : Bool) :
    (∀ count, Delivers statement ⟨.sqlite, true⟩ (.fresh dbq params desc) count) ∧
      ¬ ∀ count, Delivers statement ⟨.mysql, true⟩ (.fresh dbq params desc) count := by
  have awaits : Awaits statement 0 (.fresh dbq params desc) ⟨0, none⟩ := awaits_fresh statement dbq params desc
  constructor
  · intro count
    exact delivers_sqlite statement awaits count
  · exact mysql_not_delivers statement (awaits.prepared.unfinished statement)

end

def oneRow : Statement where
  columns := [[0x6e]]
  rows := [[[0x31]]]
  described := by decide
  shaped := by decide
  truncated _ _ := false
  message _ := none
  insertId _ := 0
  changes _ := 0

theorem backends_disagree_oneRow :
    Delivers oneRow ⟨.sqlite, true⟩ (.fresh [] [] false) 0 ∧
      (selects oneRow.library ⟨.mysql, true⟩ 1 (.fresh [] [] false) ⟨0, none⟩).1.status = .finished ∧
      ¬ Delivers oneRow ⟨.mysql, true⟩ (.fresh [] [] false) 0 := by
  have finished : (selects oneRow.library ⟨.mysql, true⟩ 1 (.fresh [] [] false) ⟨0, none⟩).1.status = .finished := by
    decide
  refine ⟨⟨⟨rfl, rfl⟩, rfl⟩, finished, ?_⟩
  intro delivers
  exact absurd (finished.symm.trans delivers.1.1) (by decide)

end Webapp.Databases

import Webapp.Databases.Query

namespace Webapp.Databases

/-! One call of `Query::process` on SQLite, for any behaviour of the library. -/

section

variable {L : Type}

def Query.bound (lib : Library L) (query : Query) (library : L) : L :=
  if query.sizeArr && query.bindParams then library
  else query.params.zipIdx.foldl (fun library param => lib.sqliteBindText library (param.2 + 1) param.1) library

/-- A call that has a statement, or prepares one, and then steps it. -/
structure SqliteCall (lib : Library L) (query : Query) (library next : L) (code : StepCode) : Prop where
  unfinished : query.status ≠ .finished
  steps : ∃ opened, lib.sqliteStep (query.bound lib opened) = (next, code) ∧
    (query.sqliteStmt = true ∧ opened = library ∨
      query.sqliteStmt = false ∧ lib.sqlitePrepare library query.dbq = (opened, some true))

/-- The query once its statement has been stepped; the first call counts. -/
def Query.stepped (lib : Library L) (query : Query) (next : L) : Query :=
  let query := { query with sqliteStmt := true, err := (lib.sqliteErrmsg next).getD query.err }
  match query.status with
  | .init =>
      { query with
        columnCount := lib.sqliteColumnCount next
        lastrowid := lib.sqliteLastInsertRowid next
        rowsAffected := lib.sqliteChanges next }
  | _ => query

def Query.allocated (query : Query) : Query :=
  { query with
    description := if query.desc && query.description.isNone then some (List.replicate query.columnCount [])
      else query.description
    row := if query.row.isNone then some (List.replicate query.columnCount .empty) else query.row }

/-- The columns of the row, and their names if nobody has read them yet. -/
def Query.populated (lib : Library L) (query : Query) (next : L) : Query :=
  let columns := List.range query.columnCount
  let description := if query.description.isSome && !query.havedesc then
      some (columns.map (lib.sqliteColumnName next))
    else query.description
  { query with
    status := .started
    description := description
    havedesc := query.havedesc || description.isSome
    row := some (columns.map fun column => .text (lib.sqliteColumnText next column)) }

variable {lib : Library L} {query : Query} {library next : L} {code : StepCode}

theorem SqliteCall.prepares (call : SqliteCall lib query library next code) :
    ∃ opened, lib.sqliteStep (query.bound lib opened) = (next, code) ∧
      ({ query, library } : Running L).prepare lib ⟨.sqlite, true⟩ =
        .ok { query := { query with sqliteStmt := true }, library := opened } := by
  obtain ⟨opened, steps, held | prepared⟩ := call.steps
  · refine ⟨opened, steps, ?_⟩
    obtain ⟨held, rfl⟩ := held
    simp only [Running.prepare, held, if_true]
    rw [← held]
  · refine ⟨opened, steps, ?_⟩
    simp only [Running.prepare, prepared, Bool.false_eq_true, if_false]

theorem execute_sqlite (run : Running L) (unfinished : run.query.status ≠ .finished)
    (held : run.query.sqliteStmt = true) (steps : lib.sqliteStep run.library = (next, code)) :
    run.execute lib ⟨.sqlite, true⟩ =
      if run.query.status = .init ∧ lib.sqliteColumnCount next = 0 then
        .error ⟨run.query.stepped lib next, next, some code⟩
      else .ok ⟨run.query.stepped lib next, next, some code⟩ := by
  cases status : run.query.status with
  | init =>
      simp only [Running.execute, Running.firstRun, Running.sqliteRun, Query.stepped, status, steps, held, true_and, bind,
        Except.bind]
  | started =>
      simp only [Running.execute, Running.nextRun, Running.sqliteRun, Query.stepped, status, steps, held, reduceCtorEq,
        false_and, if_false]
  | finished => exact absurd status unfinished

theorem SqliteCall.body (call : SqliteCall lib query library next code) :
    ({ query, library } : Running L).body lib ⟨.sqlite, true⟩ =
      if query.status = .init ∧ lib.sqliteColumnCount next = 0 then
        .error ⟨query.stepped lib next, next, some code⟩
      else
        (((⟨query.stepped lib next, next, some code⟩ : Running L).allocateRow lib).sqlitePopulate lib).map
          fun run => { run with query := { run.query with status := .started } } := by
  obtain ⟨opened, steps, prepares⟩ := call.prepares
  let bound : Running L := { query := { query with sqliteStmt := true }, library := query.bound lib opened }
  have binds : Running.bindParameters lib ⟨.sqlite, true⟩
      { query := { query with sqliteStmt := true }, library := opened } = .ok bound := by
    simp only [Running.bindParameters, bound, Query.bound]
    split <;> rfl
  have executes := execute_sqlite bound call.unfinished rfl steps
  have stepped : bound.query.stepped lib next = query.stepped lib next := rfl
  rw [stepped] at executes
  by_cases counted : query.status = .init ∧ lib.sqliteColumnCount next = 0
  · rw [if_pos counted] at executes ⊢
    simp only [Running.body, prepares, binds, executes, bind, Except.bind]
  · rw [if_neg counted] at executes ⊢
    exact Running.body_populate prepares binds executes

theorem allocateRow_silent (silent : ∀ library memory, lib.allocate library memory = library) (run : Running L) :
    run.allocateRow lib = { run with query := run.query.allocated } := by
  simp only [Running.allocateRow, silent, Query.allocated]
  split <;> split <;> rfl

theorem populated_described (lib : Library L) {query : Query} (next : L) (wanted : query.desc = query.havedesc)
    (known : query.description.isSome = query.havedesc) :
    (query.allocated.populated lib next).description = query.description ∧
      (query.allocated.populated lib next).havedesc = query.havedesc := by
  cases described : query.description with
  | none =>
      rw [described] at known
      simp [Query.allocated, Query.populated, described, wanted, ← known]
  | some names =>
      rw [described] at known
      simp [Query.allocated, Query.populated, described, ← known]

theorem SqliteCall.row (call : SqliteCall lib query library next .row)
    (silent : ∀ library memory, lib.allocate library memory = library)
    (columns : query.status = .init → lib.sqliteColumnCount next ≠ 0) :
    query.process lib ⟨.sqlite, true⟩ library = ((query.stepped lib next).allocated.populated lib next, next) := by
  have body := call.body
  rw [if_neg (fun counted => columns counted.1 counted.2), allocateRow_silent silent, Running.sqlitePopulate,
    if_pos rfl] at body
  exact Query.process_ok call.unfinished body

/-- A call that meets no row, or has no columns to show it in, cleans up. -/
theorem SqliteCall.ends (call : SqliteCall lib query library next code)
    (silent : ∀ library memory, lib.allocate library memory = library)
    (ended : code ≠ .row ∨ query.status = .init ∧ lib.sqliteColumnCount next = 0) :
    ∃ run : Running L, run.library = next ∧ run.query.sqliteStmt = true ∧ run.query.mysqlStmt = query.mysqlStmt ∧
      query.process lib ⟨.sqlite, true⟩ library =
        ((run.cleanup lib ⟨.sqlite, true⟩).query, (run.cleanup lib ⟨.sqlite, true⟩).library) := by
  have held : (query.stepped lib next).sqliteStmt = true := by
    rw [Query.stepped]
    cases query.status <;> rfl
  have foreign : (query.stepped lib next).mysqlStmt = query.mysqlStmt := by
    rw [Query.stepped]
    cases query.status <;> rfl
  have body := call.body
  by_cases counted : query.status = .init ∧ lib.sqliteColumnCount next = 0
  · rw [if_pos counted] at body
    exact ⟨_, rfl, held, foreign, Query.process_error call.unfinished body⟩
  · have none : code ≠ .row := ended.resolve_right counted
    have missing : ¬ some code = some StepCode.row := by simpa using none
    rw [if_neg counted, allocateRow_silent silent, Running.sqlitePopulate, if_neg missing] at body
    exact ⟨_, rfl, held, foreign, Query.process_error call.unfinished body⟩

end

end Webapp.Databases

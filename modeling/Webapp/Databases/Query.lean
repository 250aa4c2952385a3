import Webapp.Data.Words

namespace Webapp.Databases

open Webapp.Data

/-! `Query::process` for both database libraries.  A library is given by what
its functions do to its own state, whatever that is, and what they return.
-/

inductive DatabaseType where
  | sqlite
  | mysql
  | unknown
deriving DecidableEq, Repr

inductive QueryStatus where
  | init
  | started
  | finished
deriving DecidableEq, Repr

inductive StepCode where
  | row
  | done
  | error
deriving DecidableEq, Repr

inductive Memory where
  | sizeArr
  | bindParams
  | outSizeArr
  | bindOutput
  | row
  | description
deriving DecidableEq, Repr

/-- One `webapp_str_t` of the current row.  `mysql_stmt_fetch_column` gets the
address of the string in place of a buffer and writes the column over it. -/
inductive Cell where
  | empty
  | text (bytes : List UInt8)
  | overwritten (bytes : List UInt8)
deriving DecidableEq, Repr

/-- The functions of the two libraries, and `new` and `delete`. -/
structure Library (L : Type) where
  allocate : L → Memory → L
  free : L → Memory → L
  -- an error code, or whether the text holds a statement at all
  sqlitePrepare : L → List UInt8 → L × Option Bool
  sqliteBindText : L → Nat → List UInt8 → L
  sqliteStep : L → L × StepCode
  sqliteErrmsg : L → Option (List UInt8)
  sqliteColumnCount : L → Nat
  sqliteLastInsertRowid : L → Int
  sqliteChanges : L → Int
  sqliteColumnName : L → Nat → List UInt8
  sqliteColumnText : L → Nat → List UInt8
  sqliteFinalize : L → L
  -- the functions of MySQL return zero when they succeed
  mysqlStmtInit : L → L × Bool
  mysqlStmtPrepare : L → List UInt8 → L × Nat
  mysqlStmtBindParam : L → List (List UInt8) → L × Nat
  mysqlStmtResultMetadata : L → L × Bool
  mysqlNumFields : L → Nat
  mysqlFieldNames : L → List (List UInt8)
  mysqlStmtExecute : L → L × Nat
  mysqlStmtError : L → Option (List UInt8)
  mysqlStmtInsertId : L → Nat
  mysqlStmtAffectedRows : L → Nat
  mysqlStmtBindResult : L → L
  mysqlStmtFetch : L → L × Nat
  mysqlStmtFetchColumn : L → Nat → L × Option (List UInt8)
  mysqlFreeResult : L → L
  mysqlStmtClose : L → L

/-- The type of the database and whether its connection is not `NULL`. -/
structure Database where
  dbType : DatabaseType
  connected : Bool

/-- A query; of a pointer it only matters whether it is `NULL`. -/
structure Query where
  status : QueryStatus := .init
  lastrowid : Int := 0
  columnCount : Nat := 0
  row : Option (List Cell) := none
  description : Option (List (List UInt8)) := none
  desc : Bool := false
  havedesc : Bool := false
  rowsAffected : Int := 0
  dbq : List UInt8
  err : List UInt8 := []
  params : List (List UInt8) := []
  mysqlStmt : Bool := false
  sqliteStmt : Bool := false
  sizeArr : Bool := false
  outSizeArr : Bool := false
  prepareMetaResult : Bool := false
  bindParams : Bool := false
  bindOutput : Bool := false
deriving DecidableEq, Repr

def Query.fresh (dbq : List UInt8) (params : List (List UInt8)) (desc : Bool) : Query := { dbq, params, desc }

structure Running (L : Type) where
  query : Query
  library : L
  lasterror : Option StepCode := none

section

variable {L : Type} (lib : Library L) (db : Database)

namespace Running

/-! The parts of `process`.  An error is a jump to its clean-up. -/

def prepare (run : Running L) : Except (Running L) (Running L) :=
  match db.dbType with
  | .sqlite =>
      if run.query.sqliteStmt then .ok run
      else
        match lib.sqlitePrepare run.library run.query.dbq with
        | (library, none) => .error { run with library }
        | (library, some statement) =>
            .ok { run with query := { run.query with sqliteStmt := statement }, library }
  | .mysql =>
      if run.query.mysqlStmt then .ok run
      else
        match lib.mysqlStmtInit run.library with
        | (library, false) => .error { run with library }
        | (library, true) =>
            .ok { run with
              query := { run.query with mysqlStmt := true }
              library := (lib.mysqlStmtPrepare library run.query.dbq).1 }
  | .unknown => .ok run

/-- The statement of SQLite is bound again by every call, as its two arrays stay
`NULL`. -/
def bindParameters (run : Running L) : Except (Running L) (Running L) :=
  if run.query.sizeArr && run.query.bindParams then .ok run
  else
    match db.dbType with
    | .sqlite =>
        .ok { run with
          library := run.query.params.zipIdx.foldl
            (fun library param => lib.sqliteBindText library (param.2 + 1) param.1) run.library }
    | .mysql =>
        if run.query.params.length = 0 then .ok run
        else
          let allocated := lib.allocate (lib.allocate run.library .sizeArr) .bindParams
          let bound := lib.mysqlStmtBindParam allocated run.query.params
          let run := { run with
            query := { run.query with sizeArr := true, bindParams := true }
            library := bound.1 }
          if bound.2 = 0 then .ok run else .error run
    | .unknown => .ok run

def sqliteRun (run : Running L) : Running L :=
  let step := lib.sqliteStep run.library
  { query := { run.query with err := (lib.sqliteErrmsg step.1).getD run.query.err }
    library := step.1
    lasterror := some step.2 }

def mysqlRun (run : Running L) : Except (Running L) (Running L) :=
  let executed := lib.mysqlStmtExecute run.library
  if executed.2 = 0 then
    .ok { run with
      query := { run.query with err := (lib.mysqlStmtError executed.1).getD run.query.err }
      library := executed.1 }
  else .error { run with library := executed.1 }

/-- The first call: SQLite has to execute to know its columns. -/
def firstRun (run : Running L) : Except (Running L) (Running L) := do
  let run ← match db.dbType with
    | .sqlite =>
        let run := run.sqliteRun lib
        .ok { run with query := { run.query with
          columnCount := lib.sqliteColumnCount run.library
          lastrowid := lib.sqliteLastInsertRowid run.library
          rowsAffected := lib.sqliteChanges run.library } }
    | .mysql =>
        let run := if run.query.prepareMetaResult then run
          else
            let metadata := lib.mysqlStmtResultMetadata run.library
            { run with query := { run.query with prepareMetaResult := metadata.2 }, library := metadata.1 }
        let run := if run.query.prepareMetaResult then
            { run with query := { run.query with columnCount := lib.mysqlNumFields run.library } }
          else run
        (run.mysqlRun lib).map fun run => { run with query := { run.query with
          lastrowid := int64 (lib.mysqlStmtInsertId run.library)
          rowsAffected := int32 (lib.mysqlStmtAffectedRows run.library) } }
    | .unknown => .ok run
  if run.query.columnCount = 0 then .error run else .ok run

def nextRun (run : Running L) : Except (Running L) (Running L) :=
  match db.dbType with
  | .sqlite => .ok (run.sqliteRun lib)
  | .mysql => run.mysqlRun lib
  | .unknown => .ok run

def execute (run : Running L) : Except (Running L) (Running L) :=
  match run.query.status with
  | .init => run.firstRun lib db
  | .started => run.nextRun lib db
  | .finished => .ok run

def allocateRow (run : Running L) : Running L :=
  let run := if run.query.desc && run.query.description.isNone then
      { run with
        query := { run.query with description := some (List.replicate run.query.columnCount []) }
        library := lib.allocate run.library .description }
    else run
  if run.query.row.isNone then
    { run with
      query := { run.query with row := some (List.replicate run.query.columnCount .empty) }
      library := lib.allocate run.library .row }
  else run

def sqlitePopulate (run : Running L) : Except (Running L) (Running L) :=
  if run.lasterror = some .row then
    let columns := List.range run.query.columnCount
    let description := if run.query.description.isSome && !run.query.havedesc then
        some (columns.map (lib.sqliteColumnName run.library))
      else run.query.description
    .ok { run with query := { run.query with
      description := description
      havedesc := run.query.havedesc || description.isSome
      row := some (columns.map fun column => .text (lib.sqliteColumnText run.library column)) } }
  else .error run

/-- The output is bound once; the names come with it. -/
def bindOutput (run : Running L) : Running L :=
  if run.query.bindOutput then run
  else
    let described := run.query.description.isSome && !run.query.havedesc
    { run with
      query := { run.query with
        bindOutput := true
        outSizeArr := true
        description := if described then some (lib.mysqlFieldNames run.library) else run.query.description
        havedesc := run.query.havedesc || described }
      library := lib.mysqlStmtBindResult (lib.allocate (lib.allocate run.library .bindOutput) .outSizeArr) }

/-- A column that cannot be fetched leaves its string alone. -/
def fetchColumns (library : L) : Nat → List Cell → L × List Cell
  | _, [] => (library, [])
  | column, cell :: cells =>
      let fetched := lib.mysqlStmtFetchColumn library column
      let rest := fetchColumns fetched.1 (column + 1) cells
      (rest.1, (fetched.2.map Cell.overwritten).getD cell :: rest.2)

/-- The columns are fetched if `mysql_stmt_fetch` returns anything but zero. -/
def mysqlPopulate (run : Running L) : Except (Running L) (Running L) :=
  let run := run.bindOutput lib
  let fetched := lib.mysqlStmtFetch run.library
  if fetched.2 ≠ 0 then
    let columns := fetchColumns lib fetched.1 0 (run.query.row.getD [])
    .ok { run with query := { run.query with row := some columns.2 }, library := columns.1 }
  else .error { run with library := fetched.1 }

def populate (run : Running L) : Except (Running L) (Running L) :=
  match db.dbType with
  | .sqlite => run.sqlitePopulate lib
  | .mysql => run.mysqlPopulate lib
  | .unknown => .ok run

def cleanup (run : Running L) : Running L :=
  let release (held : Bool) (function : L → L) (library : L) : L := if held then function library else library
  let query := run.query
  let library := match db.dbType with
    | .mysql =>
        release query.outSizeArr (lib.free · .outSizeArr) <|
          release query.bindParams (lib.free · .bindParams) <|
            release query.sizeArr (lib.free · .sizeArr) <|
              release query.prepareMetaResult lib.mysqlFreeResult run.library
    | _ => run.library
  let query := match db.dbType with
    | .mysql => { query with prepareMetaResult := false, sizeArr := false, bindParams := false, outSizeArr := false }
    | _ => query
  { run with
    query := { query with status := .finished, mysqlStmt := false, sqliteStmt := false }
    library := release query.sqliteStmt lib.sqliteFinalize (release query.mysqlStmt lib.mysqlStmtClose library) }

def body (run : Running L) : Except (Running L) (Running L) := do
  let run ← run.prepare lib db
  let run ← run.bindParameters lib db
  let run ← run.execute lib db
  let run ← (run.allocateRow lib).populate lib db
  .ok { run with query := { run.query with status := .started } }

end Running

def Query.process (query : Query) (library : L) : Query × L :=
  if query.status = .finished then (query, library)
  else
    let run : Running L := { query, library }
    let after := if db.dbType ≠ .unknown ∧ db.connected = false then run.cleanup lib db
      else
        match run.body lib db with
        | .ok run => run
        | .error run => run.cleanup lib db
    (after.query, after.library)

theorem Running.body_populate {lib : Library L} {db : Database} {run prepared bound executed : Running L}
    (prepares : run.prepare lib db = .ok prepared) (binds : prepared.bindParameters lib db = .ok bound)
    (executes : bound.execute lib db = .ok executed) :
    run.body lib db = ((executed.allocateRow lib).populate lib db).map
      fun run => { run with query := { run.query with status := .started } } := by
  simp only [body, prepares, binds, executes, bind, Except.bind]
  cases (executed.allocateRow lib).populate lib db <;> rfl

theorem Query.process_ok {lib : Library L} {dbType : DatabaseType} {query : Query} {library : L}
    {run : Running L} (unfinished : query.status ≠ .finished)
    (body : ({ query, library } : Running L).body lib ⟨dbType, true⟩ = .ok run) :
    query.process lib ⟨dbType, true⟩ library = (run.query, run.library) := by
  rw [process, if_neg unfinished]
  simp only [body, Bool.true_eq_false, and_false, if_false]

theorem Query.process_error {lib : Library L} {dbType : DatabaseType} {query : Query} {library : L}
    {run : Running L} (unfinished : query.status ≠ .finished)
    (body : ({ query, library } : Running L).body lib ⟨dbType, true⟩ = .error run) :
    query.process lib ⟨dbType, true⟩ library =
      ((run.cleanup lib ⟨dbType, true⟩).query, (run.cleanup lib ⟨dbType, true⟩).library) := by
  rw [process, if_neg unfinished]
  simp only [body, Bool.true_eq_false, and_false, if_false]

theorem Query.process_finished {query : Query} (finished : query.status = .finished) (library : L) :
    query.process lib db library = (query, library) := if_pos finished

def selects : Nat → Query → L → Query × L
  | 0, query, library => (query, library)
  | count + 1, query, library =>
      let after := selects count query library
      after.1.process lib db after.2

end

end Webapp.Databases

import Webapp.Databases.Sqlite

namespace Webapp.Databases

/-! The rows of a statement of SQLite through the calls of one query. -/

/-- A statement on its way: the values bound by their index, the number of rows
delivered since the first step, and how often it was finalised. -/
structure SqliteCursor where
  bound : Nat → Option (List UInt8)
  position : Option Nat
  finalised : Nat

def SqliteCursor.fresh : SqliteCursor := ⟨fun _ => none, none, 0⟩

/-- A statement that was prepared.  What it yields and how it ends depends on the
values bound to it.  Without columns there are no rows. -/
structure SqliteStatement where
  columnCount : Nat
  rows : (Nat → Option (List UInt8)) → List (List (List UInt8))
  ending : (Nat → Option (List UInt8)) → StepCode
  shaped : ∀ bound, ∀ row ∈ rows bound, row.length = columnCount
  columnless : columnCount = 0 → ∀ bound, rows bound = []
  ending_ne_row : ∀ bound, ending bound ≠ .row
  name : SqliteCursor → Nat → List UInt8
  message : SqliteCursor → Option (List UInt8)
  lastInsertRowid : SqliteCursor → Int
  changes : SqliteCursor → Int

namespace SqliteStatement

/-- A statement that has been stepped takes no more values. -/
def bindText (cursor : SqliteCursor) (index : Nat) (value : List UInt8) : SqliteCursor :=
  match cursor.position with
  | none => { cursor with bound := Function.update cursor.bound index (some value) }
  | some _ => cursor

def step (statement : SqliteStatement) (cursor : SqliteCursor) : SqliteCursor × StepCode :=
  let position := cursor.position.getD 0
  if position < (statement.rows cursor.bound).length then ({ cursor with position := some (position + 1) }, .row)
  else ({ cursor with position := some position }, statement.ending cursor.bound)

def columnText (statement : SqliteStatement) (cursor : SqliteCursor) (index : Nat) : List UInt8 :=
  (((statement.rows cursor.bound)[cursor.position.getD 0 - 1]?).bind fun row => row[index]?).getD []

/-- The functions of SQLite for this statement, whatever those of MySQL do. -/
def library (statement : SqliteStatement) (other : Library SqliteCursor) : Library SqliteCursor :=
  { other with
    allocate := fun cursor _ => cursor
    sqlitePrepare := fun cursor _ => (cursor, some true)
    sqliteBindText := bindText
    sqliteStep := statement.step
    sqliteErrmsg := statement.message
    sqliteColumnCount := fun _ => statement.columnCount
    sqliteLastInsertRowid := statement.lastInsertRowid
    sqliteChanges := statement.changes
    sqliteColumnName := statement.name
    sqliteColumnText := statement.columnText
    sqliteFinalize := fun cursor => { cursor with finalised := cursor.finalised + 1 } }

end SqliteStatement

def boundTo (params : List (List UInt8)) (index : Nat) : Option (List UInt8) :=
  if index = 0 then none else params[index - 1]?

theorem bindText_stepped {cursor : SqliteCursor} {position : Nat} (stepped : cursor.position = some position)
    (index : Nat) (value : List UInt8) : SqliteStatement.bindText cursor index value = cursor := by
  rw [SqliteStatement.bindText, stepped]

section

variable (statement : SqliteStatement) (other : Library SqliteCursor)

theorem bindTexts_stepped {cursor : SqliteCursor} {position : Nat} (stepped : cursor.position = some position)
    (params : List (List UInt8 × Nat)) :
    params.foldl (fun library param => (statement.library other).sqliteBindText library (param.2 + 1) param.1) cursor =
      cursor := by
  induction params with
  | nil => rfl
  | cons param params ih =>
      rw [List.foldl_cons]
      have same : (statement.library other).sqliteBindText cursor (param.2 + 1) param.1 = cursor :=
        bindText_stepped stepped _ _
      rw [same, ih]

theorem bindTexts_unstepped (params : List (List UInt8)) (start finalised : Nat) (bound : Nat → Option (List UInt8)) :
    (params.zipIdx start).foldl
        (fun library param => (statement.library other).sqliteBindText library (param.2 + 1) param.1)
        ⟨bound, none, finalised⟩ =
      ⟨fun index => if index ≤ start then bound index else (params[index - start - 1]?).or (bound index), none,
        finalised⟩ := by
  induction params generalizing start bound with
  | nil => simp
  | cons param params ih =>
      have first : (statement.library other).sqliteBindText ⟨bound, none, finalised⟩ (start + 1) param =
          ⟨Function.update bound (start + 1) (some param), none, finalised⟩ := rfl
      rw [List.zipIdx_cons, List.foldl_cons, first, ih]
      congr 1
      funext index
      rcases Nat.lt_trichotomy index (start + 1) with below | rfl | above
      · have early : index ≤ start := by omega
        rw [if_pos (by omega), if_pos early, Function.update_of_ne (by omega)]
      · rw [if_pos le_rfl, if_neg (by omega), Function.update_self]
        simp
      · have later : index - start - 1 = index - (start + 1) - 1 + 1 := by omega
        rw [if_neg (by omega), if_neg (by omega), Function.update_of_ne (by omega), later, List.getElem?_cons_succ]

theorem bound_fresh {query : Query} (unbound : query.sizeArr = false) :
    query.bound (statement.library other) .fresh = ⟨boundTo query.params, none, 0⟩ := by
  simp only [Query.bound, unbound, Bool.false_and, Bool.false_eq_true, if_false]
  rw [SqliteCursor.fresh, bindTexts_unstepped statement other query.params 0 0]
  congr 1
  funext index
  simp only [Nat.le_zero_eq, Nat.sub_zero, Option.or_none, boundTo]

theorem bound_stepped (query : Query) {cursor : SqliteCursor} {position : Nat}
    (stepped : cursor.position = some position) : query.bound (statement.library other) cursor = cursor := by
  rw [Query.bound, bindTexts_stepped statement other stepped, ite_self]

theorem columnText_row {bound : Nat → Option (List UInt8)} {position : Nat} {row : List (List UInt8)}
    (found : (statement.rows bound)[position]? = some row) :
    ((List.range statement.columnCount).map fun column =>
      Cell.text ((statement.library other).sqliteColumnText ⟨bound, some (position + 1), 0⟩ column)) =
      row.map Cell.text := by
  have width : row.length = statement.columnCount := statement.shaped bound row (List.mem_of_getElem? found)
  apply List.ext_getElem
  · simp [width]
  · intro index left right
    have inside : index < row.length := by simpa using right
    simp [SqliteStatement.library, SqliteStatement.columnText, found, inside]

variable (dbq : List UInt8) (params : List (List UInt8)) (desc : Bool)

def firstNames : List (List UInt8) :=
  (List.range statement.columnCount).map (statement.name ⟨boundTo params, some 1, 0⟩)

/-- The call with the number `count` has delivered its row. -/
structure Showing (count : Nat) (query : Query) (cursor : SqliteCursor) : Prop where
  cursor_eq : cursor = ⟨boundTo params, some (count + 1), 0⟩
  status : query.status = .started
  sqliteStmt : query.sqliteStmt = true
  mysqlStmt : query.mysqlStmt = false
  columnCount : query.columnCount = statement.columnCount
  desc_eq : query.desc = desc
  havedesc : query.havedesc = desc
  description : query.description = if desc then some (firstNames statement params) else none
  row : ∀ row, (statement.rows (boundTo params))[count]? = some row → query.row = some (row.map .text)

def Pending (count : Nat) (query : Query) (cursor : SqliteCursor) : Prop :=
  match count with
  | 0 => query = .fresh dbq params desc ∧ cursor = .fresh
  | count + 1 => Showing statement params desc count query cursor

variable {statement} {dbq} {params} {desc} {count : Nat} {query : Query} {cursor : SqliteCursor}

theorem Pending.mysqlStmt (pending : Pending statement dbq params desc count query cursor) :
    query.mysqlStmt = false := by
  cases count with
  | zero =>
      obtain ⟨rfl, _⟩ := pending
      rfl
  | succ count => exact Showing.mysqlStmt pending

/-- Whether it is the first call or a later one, it steps from `count` rows on. -/
theorem Pending.call (pending : Pending statement dbq params desc count query cursor) :
    let stepped := statement.step ⟨boundTo params, some count, 0⟩
    SqliteCall (statement.library other) query cursor stepped.1 stepped.2 := by
  cases count with
  | zero =>
      obtain ⟨rfl, rfl⟩ := pending
      refine ⟨(by decide : QueryStatus.init ≠ .finished), .fresh, ?_, Or.inr ⟨rfl, rfl⟩⟩
      rw [bound_fresh statement other rfl]
      rfl
  | succ count =>
      have showing : Showing statement params desc count query cursor := pending
      refine ⟨by rw [showing.status]; decide, cursor, ?_, Or.inl ⟨showing.sqliteStmt, rfl⟩⟩
      have position : cursor.position = some (count + 1) := by rw [showing.cursor_eq]
      rw [bound_stepped statement other query position, showing.cursor_eq]
      rfl

theorem step_row {row : List (List UInt8)} (found : (statement.rows (boundTo params))[count]? = some row) :
    statement.step ⟨boundTo params, some count, 0⟩ = (⟨boundTo params, some (count + 1), 0⟩, .row) := by
  have inside : count < (statement.rows (boundTo params)).length := (List.getElem?_eq_some_iff.mp found).1
  exact if_pos inside

theorem step_end (none : (statement.rows (boundTo params))[count]? = none) :
    statement.step ⟨boundTo params, some count, 0⟩ =
      (⟨boundTo params, some count, 0⟩, statement.ending (boundTo params)) := by
  have outside : ¬ count < (statement.rows (boundTo params)).length :=
    Nat.not_lt.mpr (List.getElem?_eq_none_iff.mp none)
  exact if_neg outside

theorem columnCount_pos {row : List (List UInt8)} (found : (statement.rows (boundTo params))[count]? = some row) :
    statement.columnCount ≠ 0 := by
  intro columnless
  rw [statement.columnless columnless] at found
  cases found

theorem Pending.row (pending : Pending statement dbq params desc count query cursor)
    {row : List (List UInt8)} (found : (statement.rows (boundTo params))[count]? = some row) :
    let after := query.process (statement.library other) ⟨.sqlite, true⟩ cursor
    Showing statement params desc count after.1 after.2 := by
  have call := pending.call other
  simp only [step_row found] at call
  rw [call.row (fun _ _ => rfl) fun _ => columnCount_pos found]
  have cells := columnText_row statement other found
  have only (next : List (List UInt8)) (same : (statement.rows (boundTo params))[count]? = some next) : row = next := by
    rw [found] at same
    exact Option.some.inj same
  cases count with
  | zero =>
      obtain ⟨rfl, _⟩ := pending
      refine ⟨rfl, rfl, rfl, rfl, rfl, rfl, ?_, ?_, ?_⟩
      · cases desc <;> rfl
      · cases desc <;> rfl
      · intro next same
        rw [← only next same, ← cells]
        rfl
  | succ count =>
      have showing : Showing statement params desc count query cursor := pending
      have stepped : query.stepped (statement.library other) ⟨boundTo params, some (count + 1 + 1), 0⟩ =
          { query with err := (query.stepped (statement.library other) ⟨boundTo params, some (count + 1 + 1), 0⟩).err } := by
        simp only [Query.stepped, showing.status]
        rw [← showing.sqliteStmt]
      rw [stepped]
      have known : query.description.isSome = query.havedesc := by
        rw [showing.description, showing.havedesc]
        cases desc <;> rfl
      obtain ⟨description, havedesc⟩ := populated_described (statement.library other)
        ⟨boundTo params, some (count + 1 + 1), 0⟩ (showing.desc_eq.trans showing.havedesc.symm) known
      refine ⟨rfl, rfl, showing.sqliteStmt, showing.mysqlStmt, showing.columnCount, showing.desc_eq,
        havedesc.trans showing.havedesc, description.trans showing.description, ?_⟩
      intro next same
      rw [← only next same, ← cells, ← showing.columnCount]
      rfl

theorem Pending.ends (pending : Pending statement dbq params desc count query cursor)
    (none : (statement.rows (boundTo params))[count]? = none) :
    let after := query.process (statement.library other) ⟨.sqlite, true⟩ cursor
    after.1.status = .finished ∧ after.1.sqliteStmt = false ∧ after.2.finalised = 1 := by
  have call := pending.call other
  simp only [step_end none] at call
  obtain ⟨run, library, held, foreign, processed⟩ :=
    call.ends (fun _ _ => rfl) (Or.inl (statement.ending_ne_row (boundTo params)))
  rw [processed]
  refine ⟨rfl, rfl, ?_⟩
  simp only [Running.cleanup, held, foreign, pending.mysqlStmt, library, if_true, Bool.false_eq_true, if_false]
  rfl

theorem selects_pending (within : count ≤ (statement.rows (boundTo params)).length) :
    let after := selects (statement.library other) ⟨.sqlite, true⟩ count (.fresh dbq params desc) .fresh
    Pending statement dbq params desc count after.1 after.2 := by
  induction count with
  | zero => exact ⟨rfl, rfl⟩
  | succ count ih =>
      have inside : count < (statement.rows (boundTo params)).length := within
      exact (ih inside.le).row other (List.getElem?_eq_getElem inside)

theorem selects_ended (past : (statement.rows (boundTo params)).length ≤ count) :
    selects (statement.library other) ⟨.sqlite, true⟩ (count + 1) (.fresh dbq params desc) .fresh =
      selects (statement.library other) ⟨.sqlite, true⟩ ((statement.rows (boundTo params)).length + 1)
        (.fresh dbq params desc) .fresh := by
  have ended : (selects (statement.library other) ⟨.sqlite, true⟩ ((statement.rows (boundTo params)).length + 1)
      (.fresh dbq params desc) .fresh).1.status = .finished :=
    ((selects_pending other le_rfl).ends other (List.getElem?_eq_none le_rfl)).1
  induction count, past using Nat.le_induction with
  | base => rfl
  | succ count past ih =>
      rw [selects, ih]
      exact Query.process_finished _ _ ended _

end

/-- A text that cannot be prepared ends the query before anything is counted. -/
theorem process_unprepared {L : Type} {lib : Library L} {query : Query} {library : L}
    (unfinished : query.status ≠ .finished) (unprepared : query.sqliteStmt = false)
    (failed : (lib.sqlitePrepare library query.dbq).2 = none) :
    (query.process lib ⟨.sqlite, true⟩ library).1 =
      { query with status := .finished, mysqlStmt := false, sqliteStmt := false } := by
  obtain ⟨after, prepared⟩ : ∃ after, lib.sqlitePrepare library query.dbq = (after, none) := ⟨_, Prod.ext rfl failed⟩
  have body : ({ query, library } : Running L).body lib ⟨.sqlite, true⟩ = .error { query, library := after } := by
    simp only [Running.body, Running.prepare, unprepared, prepared, Bool.false_eq_true, if_false, bind, Except.bind]
  rw [Query.process_error unfinished body]
  rfl

/-- What the call with the number `count` leaves behind: its row while there is
one, with the names of the first; the end and a finalised statement from then on. -/
def DeliversRow (statement : SqliteStatement) (params : List (List UInt8)) (desc : Bool) (count : Nat)
    (after ended : Query × SqliteCursor) : Prop :=
  match (statement.rows (boundTo params))[count]? with
  | some row =>
      after.1.status = .started ∧ after.1.row = some (row.map .text) ∧
        after.1.description = (if desc then some (firstNames statement params) else none) ∧ after.2.finalised = 0
  | none =>
      after = ended ∧ after.1.status = .finished ∧ after.1.sqliteStmt = false ∧ after.2.finalised = 1

/-- The calls of a query on SQLite deliver the rows of its statement once and in
order.  A text that cannot be prepared ends the query at once. -/
theorem sqlite_delivers_rows (statement : SqliteStatement) (other : Library SqliteCursor) (dbq : List UInt8)
    (params : List (List UInt8)) (desc : Bool) :
    (∀ count,
      let after (count : Nat) :=
        selects (statement.library other) ⟨.sqlite, true⟩ count (.fresh dbq params desc) .fresh
      DeliversRow statement params desc count (after (count + 1))
          (after ((statement.rows (boundTo params)).length + 1)) ∧
        (statement.columnCount = 0 → (after 1).1.status = .finished)) ∧
    ∀ (L : Type) (lib : Library L) (library : L), (lib.sqlitePrepare library dbq).2 = none →
      let after := (Query.fresh dbq params desc).process lib ⟨.sqlite, true⟩ library
      after.1.status = .finished ∧ after.1.lastrowid = 0 ∧ after.1.columnCount = 0 ∧ after.1.rowsAffected = 0 := by
  refine ⟨?_, ?_⟩
  · intro count after
    refine ⟨?_, ?_⟩
    · rw [DeliversRow]
      cases found : (statement.rows (boundTo params))[count]? with
      | some row =>
          have inside : count < (statement.rows (boundTo params)).length := (List.getElem?_eq_some_iff.mp found).1
          have showing : Showing statement params desc count (after (count + 1)).1 (after (count + 1)).2 :=
            (selects_pending other inside.le).row other found
          refine ⟨showing.status, showing.row row found, showing.description, ?_⟩
          rw [showing.cursor_eq]
      | none =>
          have past : (statement.rows (boundTo params)).length ≤ count := List.getElem?_eq_none_iff.mp found
          have same : after (count + 1) = after ((statement.rows (boundTo params)).length + 1) :=
            selects_ended other past
          refine ⟨same, ?_⟩
          rw [same]
          exact (selects_pending other le_rfl).ends other (List.getElem?_eq_none le_rfl)
    · intro columnless
      have empty : (statement.rows (boundTo params))[0]? = none := by
        rw [statement.columnless columnless]
        rfl
      have pending : Pending statement dbq params desc 0 (.fresh dbq params desc) .fresh := ⟨rfl, rfl⟩
      exact (pending.ends other empty).1
  · intro L lib library failed after
    have ended : after.1 = { Query.fresh dbq params desc with status := .finished } :=
      process_unprepared (by decide : QueryStatus.init ≠ .finished) rfl failed
    rw [ended]
    exact ⟨rfl, rfl, rfl, rfl⟩

/-- Two people with a number and a name each, if the name asked for is `*`. -/
def people : SqliteStatement where
  columnCount := 2
  rows bound := if bound 1 = some [0x2a] then [[[0x31], [0x61]], [[0x32], [0x62]]] else []
  ending _ := .done
  shaped bound := by
    split
    · decide
    · simp
  columnless none := absurd none (by decide)
  ending_ne_row _ := by decide
  name _ index := if index = 0 then [0x69, 0x64] else [0x6e]
  message _ := none
  lastInsertRowid _ := 0
  changes _ := 0

/-- Neither memory nor MySQL does anything. -/
def withoutMysql : Library SqliteCursor where
  allocate cursor _ := cursor
  free cursor _ := cursor
  sqlitePrepare cursor _ := (cursor, none)
  sqliteBindText cursor _ _ := cursor
  sqliteStep cursor := (cursor, .error)
  sqliteErrmsg _ := none
  sqliteColumnCount _ := 0
  sqliteLastInsertRowid _ := 0
  sqliteChanges _ := 0
  sqliteColumnName _ _ := []
  sqliteColumnText _ _ := []
  sqliteFinalize cursor := cursor
  mysqlStmtInit cursor := (cursor, false)
  mysqlStmtPrepare cursor _ := (cursor, 1)
  mysqlStmtBindParam cursor _ := (cursor, 1)
  mysqlStmtResultMetadata cursor := (cursor, false)
  mysqlNumFields _ := 0
  mysqlFieldNames _ := []
  mysqlStmtExecute cursor := (cursor, 1)
  mysqlStmtError _ := none
  mysqlStmtInsertId _ := 0
  mysqlStmtAffectedRows _ := 0
  mysqlStmtBindResult cursor := cursor
  mysqlStmtFetch cursor := (cursor, 1)
  mysqlStmtFetchColumn cursor _ := (cursor, none)
  mysqlFreeResult cursor := cursor
  mysqlStmtClose cursor := cursor

theorem sqlite_delivers_rows_people :
    let after (count : Nat) :=
      selects (people.library withoutMysql) ⟨.sqlite, true⟩ count (.fresh [0x73] [[0x2a]] true) .fresh
    (after 2).1.row = some [.text [0x32], .text [0x62]] ∧ (after 2).1.description = some [[0x69, 0x64], [0x6e]] ∧
      (after 3).1.status = .finished ∧ (after 3).2.finalised = 1 := by
  intro after
  have delivers := (sqlite_delivers_rows people withoutMysql [0x73] [[0x2a]] true).1
  have second : (after 2).1.status = .started ∧ (after 2).1.row = some [.text [0x32], .text [0x62]] ∧
      (after 2).1.description = some [[0x69, 0x64], [0x6e]] ∧ (after 2).2.finalised = 0 := (delivers 1).1
  have third : after 3 = after 3 ∧ (after 3).1.status = .finished ∧ (after 3).1.sqliteStmt = false ∧
      (after 3).2.finalised = 1 := (delivers 2).1
  exact ⟨second.2.1, second.2.2.1, third.2.1, third.2.2.2⟩

end Webapp.Databases

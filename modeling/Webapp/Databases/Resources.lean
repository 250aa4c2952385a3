import Webapp.Data.Ownership
import Webapp.Databases.Query

namespace Webapp.Databases

open Webapp.Data

/-! What a query owns: the pointers of `Query`, and the calls that acquire, use and
release what they point to.  The uses of each part of `process` stand beside that
part and take its decisions from it.
-/

inductive Resource where
  | sqliteStmt
  | mysqlStmt
  | prepareMetaResult
  | sizeArr
  | bindParams
  | outSizeArr
  | bindOutput
  | row
  | description
deriving DecidableEq, Repr

def Query.holds (query : Query) : Resource → Bool
  | .sqliteStmt => query.sqliteStmt
  | .mysqlStmt => query.mysqlStmt
  | .prepareMetaResult => query.prepareMetaResult
  | .sizeArr => query.sizeArr
  | .bindParams => query.bindParams
  | .outSizeArr => query.outSizeArr
  | .bindOutput => query.bindOutput
  | .row => query.row.isSome
  | .description => query.description.isSome

/-- The arguments of library calls; `NULL` is none. -/
def Query.passes (query : Query) (resources : List Resource) : List (Use Resource) :=
  (resources.filter fun resource => query.holds resource).map .pass

def Query.releases (query : Query) (resources : List Resource) : List (Use Resource) :=
  (resources.filter fun resource => query.holds resource).map .release

/-- What the clean-up of `process` and the destructor release alike. -/
def statementResources (db : Database) : List Resource :=
  match db.dbType with
  | .mysql => [.prepareMetaResult, .sizeArr, .bindParams, .outSizeArr, .mysqlStmt, .sqliteStmt]
  | _ => [.mysqlStmt, .sqliteStmt]

section

variable {L : Type} (lib : Library L) (db : Database)

namespace Running

def prepareUses (run : Running L) : List (Use Resource) :=
  match db.dbType with
  | .sqlite =>
      if run.query.sqliteStmt then []
      else
        match (lib.sqlitePrepare run.library run.query.dbq).2 with
        | some true => [.acquire .sqliteStmt]
        | _ => []
  | .mysql =>
      if run.query.mysqlStmt then []
      -- what was initialised is prepared
      else if (lib.mysqlStmtInit run.library).2 then [.acquire .mysqlStmt, .pass .mysqlStmt] else []
  | .unknown => []

def bindUses (run : Running L) : List (Use Resource) :=
  if run.query.sizeArr && run.query.bindParams then []
  else
    match db.dbType with
    | .sqlite => run.query.passes (List.replicate run.query.params.length .sqliteStmt)
    | .mysql =>
        if run.query.params.length = 0 then []
        else
          [.acquire .sizeArr, .acquire .bindParams] ++
            { run.query with sizeArr := true, bindParams := true }.passes [.mysqlStmt, .bindParams, .sizeArr]
    | .unknown => []

def mysqlRunUses (run : Running L) (questions : Nat) : List (Use Resource) :=
  run.query.passes [.mysqlStmt] ++
    if (lib.mysqlStmtExecute run.library).2 = 0 then run.query.passes (List.replicate questions .mysqlStmt) else []

/-- The query with the metadata of its statement, and what it takes to get it. -/
def describe (run : Running L) : Running L :=
  let run := if run.query.prepareMetaResult then run
    else
      let metadata := lib.mysqlStmtResultMetadata run.library
      { run with query := { run.query with prepareMetaResult := metadata.2 }, library := metadata.1 }
  if run.query.prepareMetaResult then
    { run with query := { run.query with columnCount := lib.mysqlNumFields run.library } }
  else run

def describeUses (run : Running L) : List (Use Resource) :=
  (if run.query.prepareMetaResult then []
    else
      run.query.passes [.mysqlStmt] ++
        if (lib.mysqlStmtResultMetadata run.library).2 then [.acquire .prepareMetaResult] else []) ++
    (run.describe lib).query.passes [.prepareMetaResult]

def executeUses (run : Running L) : List (Use Resource) :=
  match run.query.status, db.dbType with
  | .init, .sqlite => run.query.passes [.sqliteStmt, .sqliteStmt]
  | .init, .mysql => run.describeUses lib ++ (run.describe lib).mysqlRunUses lib 3
  | .started, .sqlite => run.query.passes [.sqliteStmt]
  | .started, .mysql => run.mysqlRunUses lib 1
  | _, _ => []

def allocateUses (run : Running L) : List (Use Resource) :=
  (if run.query.desc && run.query.description.isNone then [.acquire .description] else []) ++
    if run.query.row.isNone then [.acquire .row] else []

def sqlitePopulateUses (run : Running L) : List (Use Resource) :=
  if run.lasterror = some .row then
    let calls := if run.query.description.isSome && !run.query.havedesc then 3 else 2
    run.query.passes (List.replicate (run.query.columnCount * calls) .sqliteStmt)
  else []

def bindOutputUses (run : Running L) : List (Use Resource) :=
  if run.query.bindOutput then []
  else
    let bound : Query := { run.query with bindOutput := true, outSizeArr := true }
    [.acquire .bindOutput, .acquire .outSizeArr] ++ bound.passes [.mysqlStmt, .bindOutput, .outSizeArr] ++
      -- the fields are fetched until there is none
      if run.query.description.isSome && !run.query.havedesc then
        bound.passes (List.replicate ((lib.mysqlFieldNames run.library).length + 1) .prepareMetaResult)
      else []

def mysqlPopulateUses (run : Running L) : List (Use Resource) :=
  let bound := run.bindOutput lib
  run.bindOutputUses lib ++ bound.query.passes [.mysqlStmt] ++
    if (lib.mysqlStmtFetch bound.library).2 ≠ 0 then
      bound.query.passes (List.replicate bound.query.columnCount [.mysqlStmt, .bindOutput, .row]).flatten
    else []

def populateUses (run : Running L) : List (Use Resource) :=
  match db.dbType with
  | .sqlite => run.sqlitePopulateUses
  | .mysql => run.mysqlPopulateUses lib
  | .unknown => []

def cleanupUses (run : Running L) : List (Use Resource) := run.query.releases (statementResources db)

/-- The uses behind a part: the clean-up if it jumps there, or what comes next. -/
def usesAfter (part : Except (Running L) (Running L)) (next : Running L → List (Use Resource)) : List (Use Resource) :=
  match part with
  | .error run => run.cleanupUses db
  | .ok run => next run

def bodyUses (run : Running L) : List (Use Resource) :=
  run.prepareUses lib db ++ usesAfter db (run.prepare lib db) fun run =>
    run.bindUses db ++ usesAfter db (run.bindParameters lib db) fun run =>
      run.executeUses lib db ++ usesAfter db (run.execute lib db) fun run =>
        run.allocateUses ++ (run.allocateRow lib).populateUses lib db ++
          usesAfter db ((run.allocateRow lib).populate lib db) fun _ => []

end Running

def Query.processUses (query : Query) (library : L) : List (Use Resource) :=
  if query.status = .finished then []
  else
    let run : Running L := { query, library }
    if db.dbType ≠ .unknown ∧ db.connected = false then run.cleanupUses db else run.bodyUses lib db

def Query.destroyUses (query : Query) : List (Use Resource) :=
  query.releases ([.description, .row] ++ statementResources db)

/-- What a script may set before each call. -/
structure Inputs where
  dbq : List UInt8
  params : List (List UInt8)
  desc : Bool

def Query.given (query : Query) (inputs : Inputs) : Query :=
  { query with dbq := inputs.dbq, params := inputs.params, desc := inputs.desc }

/-- All that a query does with its resources: some calls and the destructor. -/
def Query.lifetime : Query → L → List Inputs → List (Use Resource)
  | query, _, [] => query.destroyUses db
  | query, library, inputs :: calls =>
      let after := (query.given inputs).process lib db library
      (query.given inputs).processUses lib db library ++ after.1.lifetime after.2 calls

/-- The two arrays of the parameters come and go together, the lengths of the output
go first, and only MySQL has any of them. -/
structure Query.Sound (query : Query) : Prop where
  paired : query.sizeArr = query.bindParams
  output : query.bindOutput = false → query.outSizeArr = false
  foreign : db.dbType ≠ .mysql →
    query.prepareMetaResult = false ∧ query.sizeArr = false ∧ query.outSizeArr = false ∧ query.bindOutput = false

/-- The uses change what is live as the pointers change, and the output binding
stays once it is there. -/
structure Moves (before : Query) (uses : List (Use Resource)) (after : Query) : Prop where
  leads : before.Sound db → Leads before.holds uses after.holds
  sound : before.Sound db → after.Sound db
  output : before.bindOutput = true → after.bindOutput = true

variable {lib} {db}

theorem Moves.append {before middle after : Query} {uses more : List (Use Resource)}
    (first : Moves db before uses middle) (second : Moves db middle more after) :
    Moves db before (uses ++ more) after where
  leads sound := (first.leads sound).append (second.leads (first.sound sound))
  sound sound := second.sound (first.sound sound)
  output held := second.output (first.output held)

theorem Moves.same {before after : Query} (holds : after.holds = before.holds) : Moves db before [] after := by
  have at_ (resource : Resource) : after.holds resource = before.holds resource := congrFun holds resource
  refine ⟨fun _ => by rw [holds]; rfl, fun sound => ⟨?_, ?_, ?_⟩, fun held => (at_ .bindOutput).trans held⟩
  · exact (at_ .sizeArr).trans (sound.paired.trans (at_ .bindParams).symm)
  · intro missing
    exact (at_ .outSizeArr).trans (sound.output ((at_ .bindOutput).symm.trans missing))
  · intro other
    obtain ⟨metadata, sizes, lengths, output⟩ := sound.foreign other
    exact ⟨(at_ .prepareMetaResult).trans metadata, (at_ .sizeArr).trans sizes, (at_ .outSizeArr).trans lengths,
      (at_ .bindOutput).trans output⟩

theorem Moves.refl (query : Query) : Moves db query [] query := Moves.same rfl

theorem Moves.trans_same {before middle after : Query} {uses : List (Use Resource)}
    (moves : Moves db before uses middle) (holds : after.holds = middle.holds) : Moves db before uses after := by
  have moved := moves.append (Moves.same holds)
  rwa [List.append_nil] at moved

theorem Moves.passes (query : Query) (resources : List Resource) : Moves db query (query.passes resources) query where
  leads _ := Leads.passes query.holds resources
  sound sound := sound
  output held := held

theorem Moves.pass {query : Query} {resource : Resource} (held : query.holds resource = true) :
    Moves db query [.pass resource] query where
  leads _ := Leads.pass held
  sound sound := sound
  output held := held

theorem update_output {before : Query} {resource : Resource} (held : before.bindOutput = true) :
    Function.update before.holds resource true .bindOutput = true := by
  rw [Function.update_apply]
  split
  · rfl
  · exact held

theorem Moves.acquire {before after : Query} {resource : Resource} (missing : before.holds resource = false)
    (acquired : after.holds = Function.update before.holds resource true)
    (kept : before.Sound db → after.Sound db) : Moves db before [.acquire resource] after where
  leads _ := by
    rw [acquired]
    exact Leads.acquire missing
  sound := kept
  output held := (congrFun acquired .bindOutput).trans (update_output held)

def Running.left : Except (Running L) (Running L) → Running L
  | .ok run => run
  | .error run => run

theorem Running.prepare_moves (run : Running L) :
    Moves db run.query (run.prepareUses lib db) (left (run.prepare lib db)).query := by
  rw [prepareUses, prepare]
  cases db.dbType with
  | sqlite =>
      cases held : run.query.sqliteStmt with
      | true => exact Moves.refl _
      | false =>
          obtain ⟨library, outcome⟩ := lib.sqlitePrepare run.library run.query.dbq
          cases outcome with
          | none => exact Moves.refl _
          | some statement =>
              cases statement with
              | false =>
                  apply Moves.same
                  funext resource
                  cases resource <;> first | rfl | exact held.symm
              | true =>
                  refine Moves.acquire held ?_ fun sound => ⟨sound.paired, sound.output, sound.foreign⟩
                  funext resource
                  cases resource <;> rfl
  | mysql =>
      cases held : run.query.mysqlStmt with
      | true => exact Moves.refl _
      | false =>
          obtain ⟨library, outcome⟩ := lib.mysqlStmtInit run.library
          cases outcome with
          | false => exact Moves.refl _
          | true =>
              have initialised : Moves db run.query [.acquire .mysqlStmt] { run.query with mysqlStmt := true } := by
                refine Moves.acquire held ?_ fun sound => ⟨sound.paired, sound.output, sound.foreign⟩
                funext resource
                cases resource <;> rfl
              exact initialised.append (Moves.pass rfl)
  | unknown => exact Moves.refl _

theorem Running.bindParameters_moves (run : Running L) :
    Moves db run.query (run.bindUses db) (left (run.bindParameters lib db)).query := by
  rw [bindUses, bindParameters]
  by_cases bound : (run.query.sizeArr && run.query.bindParams) = true
  · rw [if_pos bound, if_pos bound]
    exact Moves.refl _
  · rw [if_neg bound, if_neg bound]
    cases type : db.dbType with
    | sqlite => exact Moves.passes _ _
    | mysql =>
        simp only
        split
        · exact Moves.refl _
        · -- neither array is there, as they come together
          have acquired : Moves db run.query [.acquire .sizeArr, .acquire .bindParams]
              { run.query with sizeArr := true, bindParams := true } := by
            refine ⟨?_, fun sound => ⟨rfl, sound.output, fun other => absurd type other⟩, fun held => held⟩
            intro sound
            have missing : run.query.bindParams = false := by
              rw [sound.paired, Bool.and_self] at bound
              exact Bool.eq_false_of_not_eq_true bound
            have both := Leads.acquire_two (show run.query.holds .sizeArr = false from sound.paired.trans missing)
              (show run.query.holds .bindParams = false from missing) (by decide)
            convert both using 1
            funext resource
            cases resource <;> rfl
          have passed := acquired.append (Moves.passes _ [.mysqlStmt, .bindParams, .sizeArr])
          split <;> exact passed
    | unknown => exact Moves.refl _

theorem Running.mysqlRun_holds (run : Running L) : (left (run.mysqlRun lib)).query.holds = run.query.holds := by
  rw [mysqlRun]
  split <;> (funext resource; cases resource <;> rfl)

theorem Running.mysqlRun_moves (run : Running L) (questions : Nat) :
    Moves db run.query (run.mysqlRunUses lib questions) (left (run.mysqlRun lib)).query := by
  have executed : Moves db run.query (run.query.passes [.mysqlStmt]) run.query := Moves.passes _ _
  have asked : Moves db run.query (if (lib.mysqlStmtExecute run.library).2 = 0
      then run.query.passes (List.replicate questions .mysqlStmt) else []) run.query := by
    split
    · exact Moves.passes _ _
    · exact Moves.refl _
  exact (executed.append asked).trans_same run.mysqlRun_holds

theorem Running.describe_moves (type : db.dbType = .mysql) (run : Running L) :
    Moves db run.query (run.describeUses lib) (run.describe lib).query := by
  have described : Moves db run.query (if run.query.prepareMetaResult then []
      else run.query.passes [.mysqlStmt] ++
        if (lib.mysqlStmtResultMetadata run.library).2 then [.acquire .prepareMetaResult] else [])
      (run.describe lib).query := by
    rw [describe]
    cases held : run.query.prepareMetaResult with
    | true =>
        simp only [held, if_true]
        apply Moves.same
        funext resource
        cases resource <;> first | rfl | exact held.symm
    | false =>
        simp only [Bool.false_eq_true, if_false]
        refine (Moves.passes _ _).append ?_
        cases found : (lib.mysqlStmtResultMetadata run.library).2 with
        | true =>
            refine Moves.acquire held ?_ fun sound => ⟨sound.paired, sound.output, fun other => absurd type other⟩
            funext resource
            cases resource <;> rfl
        | false =>
            apply Moves.same
            funext resource
            cases resource <;> first | rfl | exact held.symm
  exact described.append (Moves.passes _ _)

def Running.counted (lastrowid rowsAffected : Running L → Int) : Running L → Running L := fun run =>
  { run with query := { run.query with lastrowid := lastrowid run, rowsAffected := rowsAffected run } }

theorem Running.firstRun_mysql (lib : Library L) (type : db.dbType = .mysql) (run : Running L) :
    ∃ lastrowid rowsAffected, run.firstRun lib db =
      (((run.describe lib).mysqlRun lib).map (counted lastrowid rowsAffected)).bind fun run =>
        if run.query.columnCount = 0 then .error run else .ok run := by
  refine ⟨fun run => int64 (lib.mysqlStmtInsertId run.library),
    fun run => int32 (lib.mysqlStmtAffectedRows run.library), ?_⟩
  rw [firstRun, type]
  rfl

theorem Running.counted_holds (executed : Except (Running L) (Running L)) (lastrowid rowsAffected : Running L → Int) :
    (left ((executed.map (counted lastrowid rowsAffected)).bind fun run =>
      if run.query.columnCount = 0 then .error run else .ok run)).query.holds = (left executed).query.holds := by
  cases executed with
  | error run => rfl
  | ok run =>
      simp only [Except.map, Except.bind]
      split <;> rfl

theorem Running.execute_moves (run : Running L) :
    Moves db run.query (run.executeUses lib db) (left (run.execute lib db)).query := by
  rw [executeUses, execute]
  cases run.query.status with
  | init =>
      cases type : db.dbType with
      | sqlite =>
          refine (Moves.passes _ _).trans_same ?_
          simp only [firstRun, type, bind, Except.bind]
          split <;> rfl
      | mysql =>
          have described : Moves db run.query (run.describeUses lib) (run.describe lib).query := run.describe_moves type
          obtain ⟨lastrowid, rowsAffected, first⟩ := firstRun_mysql lib type run
          simp only [first]
          exact (described.append ((run.describe lib).mysqlRun_moves 3)).trans_same (counted_holds _ _ _)
      | unknown =>
          refine (Moves.refl _).trans_same ?_
          simp only [firstRun, type, bind, Except.bind]
          split <;> rfl
  | started =>
      cases type : db.dbType with
      | sqlite =>
          simp only [nextRun, type]
          exact (Moves.passes _ _).trans_same rfl
      | mysql =>
          simp only [nextRun, type]
          exact run.mysqlRun_moves 1
      | unknown =>
          simp only [nextRun, type]
          exact Moves.refl _
  | finished => cases db.dbType <;> exact Moves.refl _

theorem Running.allocateRow_isSome (run : Running L) : (run.allocateRow lib).query.row.isSome = true := by
  simp only [allocateRow]
  cases found : run.query.row with
  | none => split <;> simp [found]
  | some cells => split <;> simp [found]

theorem Running.allocateRow_moves (run : Running L) :
    Moves db run.query run.allocateUses (run.allocateRow lib).query := by
  let described : Running L := if run.query.desc && run.query.description.isNone then
      { run with
        query := { run.query with description := some (List.replicate run.query.columnCount []) }
        library := lib.allocate run.library .description }
    else run
  have description : Moves db run.query
      (if run.query.desc && run.query.description.isNone then [.acquire .description] else []) described.query := by
    by_cases wanted : (run.query.desc && run.query.description.isNone) = true
    · have missing : run.query.description.isSome = false := by
        rw [Bool.and_eq_true] at wanted
        simpa using wanted.2
      simp only [described, if_pos wanted]
      refine Moves.acquire missing ?_ fun sound => ⟨sound.paired, sound.output, sound.foreign⟩
      funext resource
      cases resource <;> rfl
    · simp only [described, if_neg wanted]
      exact Moves.refl _
  have sameRow : described.query.row = run.query.row := by
    simp only [described]
    split <;> rfl
  have allocated : run.allocateRow lib = if described.query.row.isNone then
      { described with
        query := { described.query with row := some (List.replicate described.query.columnCount .empty) }
        library := lib.allocate described.library .row }
    else described := rfl
  rw [allocated, allocateUses, ← sameRow]
  refine description.append ?_
  cases missing : described.query.row with
  | none =>
      refine Moves.acquire (by rw [Query.holds, missing]; rfl) ?_ fun sound => ⟨sound.paired, sound.output, sound.foreign⟩
      funext resource
      cases resource <;> rfl
  | some cells => exact Moves.refl _

theorem Running.sqlitePopulate_moves {run : Running L} (rowed : run.query.row.isSome = true) :
    Moves db run.query run.sqlitePopulateUses (left (run.sqlitePopulate lib)).query := by
  rw [sqlitePopulateUses, sqlitePopulate]
  by_cases found : run.lasterror = some .row
  · rw [if_pos found, if_pos found]
    refine (Moves.passes _ _).trans_same ?_
    funext resource
    cases resource with
    | row => exact rowed.symm
    | description =>
        simp only [left, Query.holds]
        split
        · rename_i unread
          rw [Bool.and_eq_true] at unread
          exact unread.1.symm
        · rfl
    | _ => rfl
  · rw [if_neg found, if_neg found]
    exact Moves.refl _

theorem Running.bindOutput_moves (type : db.dbType = .mysql) (run : Running L) :
    Moves db run.query (run.bindOutputUses lib) (run.bindOutput lib).query := by
  rw [bindOutputUses, bindOutput]
  cases held : run.query.bindOutput with
  | true => exact Moves.refl _
  | false =>
      simp only [Bool.false_eq_true, if_false]
      have acquired : Moves db run.query [.acquire .bindOutput, .acquire .outSizeArr]
          { run.query with bindOutput := true, outSizeArr := true } := by
        refine ⟨?_, fun sound => ⟨sound.paired, (fun missing => nomatch missing), fun other => absurd type other⟩,
          fun _ => rfl⟩
        intro sound
        have both := Leads.acquire_two (show run.query.holds .bindOutput = false from held)
          (show run.query.holds .outSizeArr = false from sound.output held) (by decide)
        convert both using 1
        funext resource
        cases resource <;> rfl
      have passed := acquired.append (Moves.passes _ [.mysqlStmt, .bindOutput, .outSizeArr])
      by_cases unread : (run.query.description.isSome && !run.query.havedesc) = true
      · have described : run.query.description.isSome = true := (Bool.and_eq_true_iff.mp unread).1
        simp only [unread, if_true]
        refine (passed.append (Moves.passes _ _)).trans_same ?_
        funext resource
        cases resource <;> first | rfl | exact described.symm
      · simp only [if_neg unread]
        exact (passed.append (Moves.refl _)).trans_same rfl

theorem Running.bindOutput_row (run : Running L) : (run.bindOutput lib).query.row = run.query.row := by
  rw [bindOutput]
  split <;> rfl

theorem Running.mysqlPopulate_moves (type : db.dbType = .mysql) {run : Running L}
    (rowed : run.query.row.isSome = true) :
    Moves db run.query (run.mysqlPopulateUses lib) (left (run.mysqlPopulate lib)).query := by
  rw [mysqlPopulateUses, mysqlPopulate]
  have bound : Moves db run.query (run.bindOutputUses lib) (run.bindOutput lib).query := run.bindOutput_moves type
  have fetched := bound.append (Moves.passes _ [.mysqlStmt])
  simp only
  by_cases found : (lib.mysqlStmtFetch (run.bindOutput lib).library).2 ≠ 0
  · rw [if_pos found, if_pos found]
    refine (fetched.append (Moves.passes _ _)).trans_same ?_
    funext resource
    cases resource with
    | row =>
        have kept : (run.bindOutput lib).query.row.isSome = true := by rw [bindOutput_row, rowed]
        exact kept.symm
    | _ => rfl
  · rw [if_neg found, if_neg found]
    exact (fetched.append (Moves.refl _))

theorem Running.populate_moves {run : Running L} (rowed : run.query.row.isSome = true) :
    Moves db run.query (run.populateUses lib db) (left (run.populate lib db)).query := by
  rw [populateUses, populate]
  cases type : db.dbType with
  | sqlite => exact sqlitePopulate_moves rowed
  | mysql => exact mysqlPopulate_moves type rowed
  | unknown => exact Moves.refl _

theorem statementResources_nodup : ([Resource.description, .row] ++ statementResources db).Nodup := by
  rw [statementResources]
  cases db.dbType <;> decide

theorem Running.cleanup_holds (run : Running L) :
    (run.cleanup lib db).query.holds =
      fun resource => run.query.holds resource && !decide (resource ∈ statementResources db) := by
  funext resource
  rw [cleanup, statementResources]
  cases db.dbType <;> cases resource <;> simp [Query.holds]

theorem Running.cleanup_moves (run : Running L) :
    Moves db run.query (run.cleanupUses db) (run.cleanup lib db).query := by
  refine ⟨fun _ => ?_, fun sound => ?_, fun held => ?_⟩
  · rw [cleanup_holds]
    exact Leads.releases (List.nodup_append.mp statementResources_nodup).2.1 run.query.holds
  · rw [cleanup]
    cases type : db.dbType with
    | mysql => exact ⟨rfl, fun _ => rfl, fun other => absurd type other⟩
    | _ => exact ⟨sound.paired, sound.output, sound.foreign⟩
  · rw [cleanup]
    cases db.dbType <;> exact held

def Running.finish (lib : Library L) (db : Database) : Except (Running L) (Running L) → Running L
  | .ok run => run
  | .error run => run.cleanup lib db

theorem Moves.chain {before : Query} {uses : List (Use Resource)} {part : Except (Running L) (Running L)}
    {more : Running L → List (Use Resource)} {rest : Running L → Except (Running L) (Running L)}
    (moves : Moves db before uses (Running.left part).query)
    (continues : ∀ run, part = .ok run → Moves db run.query (more run) (Running.finish lib db (rest run)).query) :
    Moves db before (uses ++ Running.usesAfter db part more) (Running.finish lib db (part.bind rest)).query := by
  cases part with
  | error run => exact moves.append run.cleanup_moves
  | ok run => exact moves.append (continues run rfl)

theorem Running.body_moves (run : Running L) :
    Moves db run.query (run.bodyUses lib db) (finish lib db (run.body lib db)).query := by
  refine Moves.chain run.prepare_moves ?_
  intro run _
  refine Moves.chain run.bindParameters_moves ?_
  intro run _
  refine Moves.chain run.execute_moves ?_
  intro run _
  have rowed : (run.allocateRow lib).query.row.isSome = true := run.allocateRow_isSome
  have allocates : Moves db run.query run.allocateUses (run.allocateRow lib).query := run.allocateRow_moves
  have populates : Moves db run.query (run.allocateUses ++ (run.allocateRow lib).populateUses lib db)
      (left ((run.allocateRow lib).populate lib db)).query := allocates.append (populate_moves rowed)
  refine Moves.chain populates ?_
  intro run _
  exact (Moves.refl _).trans_same rfl

/-- A call of `process` uses its resources as its pointers say. -/
theorem Query.process_moves (lib : Library L) (db : Database) (query : Query) (library : L) :
    Moves db query (query.processUses lib db library) (query.process lib db library).1 := by
  have body : Moves db query (({ query, library } : Running L).bodyUses lib db)
      (Running.finish lib db (({ query, library } : Running L).body lib db)).query :=
    ({ query, library } : Running L).body_moves
  rw [processUses, process]
  split
  · exact Moves.refl _
  · simp only
    split
    · exact ({ query, library } : Running L).cleanup_moves
    · cases result : ({ query, library } : Running L).body lib db with
      | error run =>
          rw [result] at body
          exact body
      | ok run =>
          rw [result] at body
          exact body

end

end Webapp.Databases

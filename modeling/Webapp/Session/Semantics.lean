import Webapp.Data.Runs
import Webapp.Session.Sessions

namespace Webapp.Session

open Webapp.Data

/-! What a session reads.  The abstract model is the history of what was put and
wiped; the flat keyspace of the store is shown to implement it.
-/

inductive Effect where
  | put (id key value : List UInt8)
  | wipe (ids : List UInt8 → Bool)

/-- The value of the latest put that no wipe followed, and otherwise nothing.
The latest effect comes first. -/
def latestPut : List Effect → List UInt8 → List UInt8 → List UInt8
  | [], _, _ => []
  | .put id key value :: past, reader, wanted =>
      if id = reader ∧ key = wanted then value else latestPut past reader wanted
  | .wipe ids :: past, reader, wanted =>
      if ids reader then [] else latestPut past reader wanted

def Effect.Concerns (reader : List UInt8) : Effect → Prop
  | .put id _ _ => id = reader
  | .wipe ids => ids reader = true

/-- What a call does to the sessions, seen from outside. -/
def Sessions.effects (sessions : Sessions) : Operation → List Effect
  | .put handle key value =>
      match sessions.handles[handle]? with
      | some (some id) => [.put id key value]
      | _ => []
  | .destroy handle =>
      match sessions.handles[handle]? with
      | some (some id) => [.wipe fun other => other == id]
      | _ => []
  | .cleanup now => [.wipe (recordOutdated sessions.db now)]
  | _ => []

def history : Sessions → List Operation → List Effect → List Effect
  | _, [], past => past
  | sessions, operation :: operations, past =>
      match sessions.step operation with
      | some next => history next operations (sessions.effects operation ++ past)
      | none => past

/-- The calls that only deal in ids which `new_session` or the cookie path made. -/
def Operation.identified : Operation → Bool
  | .getSession _ _ | .getRawSession => false
  | _ => true

theorem newSessionId_length (digest : Digest) : (newSessionId digest).length = sessionIdSize := by
  have size := digest.length_eq
  simp [newSessionId, List.length_flatMap, sessionIdSize, size]

theorem scanCookies_length {beyond : UInt8} {atStart : Bool} {cookies id : List UInt8}
    (found : scanCookies beyond atStart cookies = some id) : id.length ≤ sessionIdSize := by
  fun_induction scanCookies beyond atStart cookies with
  | case1 => simp at found
  | case2 => simp at found
  | case3 =>
      cases found
      exact List.length_take_le _ _
  | case4 => simp at found
  | case5 _ _ _ _ _ ih => exact ih found
  | case6 =>
      cases found
      exact List.length_take_le _ _
  | case7 _ _ _ _ _ _ ih => exact ih found

theorem cookieSessionId_length {cookies id : List UInt8} {beyond : UInt8}
    (found : cookieSessionId cookies beyond = some id) : id.length = sessionIdSize := by
  simp only [cookieSessionId, Option.ite_none_left_eq_some, Option.filter_eq_some_iff] at found
  obtain ⟨_, scanned, long⟩ := found
  have short := scanCookies_length scanned
  simp only [Bool.not_eq_true', decide_eq_false_iff_not] at long
  omega

section

variable {db : Db} {id other key : List UInt8}

theorem record_ne_data (size : id.length = sessionIdSize) (otherSize : other.length = sessionIdSize)
    (nonempty : key ≠ []) : sessionKey other ≠ sessionKey id ++ key := by
  intro same
  have lengths := congrArg List.length same
  have positive := List.length_pos_iff.mpr nonempty
  rw [List.length_append, sessionKey_length size, sessionKey_length otherSize] at lengths
  omega

theorem data_eq_iff (size : id.length = sessionIdSize) (otherSize : other.length = sessionIdSize)
    {first second : List UInt8} :
    sessionKey other ++ first = sessionKey id ++ second ↔ other = id ∧ first = second := by
  constructor
  · intro same
    obtain ⟨keys, rest⟩ := List.append_inj same (by rw [sessionKey_length size, sessionKey_length otherSize])
    exact ⟨List.append_cancel_left keys, rest⟩
  · intro same
    obtain ⟨rfl, rfl⟩ := same
    rfl

theorem record_extended_iff (size : id.length = sessionIdSize) (otherSize : other.length = sessionIdSize)
    (more : List UInt8) : sessionKey other <+: sessionKey id ++ more ↔ other = id := by
  constructor
  · intro extended
    obtain ⟨rest, same⟩ := extended
    exact ((data_eq_iff size otherSize).mp same).1
  · intro same
    subst same
    exact List.prefix_append _ _

theorem getElem?_construct (now : Int) (size : id.length = sessionIdSize)
    (otherSize : other.length = sessionIdSize) (nonempty : key ≠ []) :
    (construct db other now)[sessionKey id ++ key]? = db[sessionKey id ++ key]? :=
  construct_frame db now (record_ne_data size otherSize nonempty)

/-- Looking a session up touches no data, not even when it has expired. -/
theorem getElem?_getSession (now : Int) (size : id.length = sessionIdSize)
    (otherSize : other.length = sessionIdSize) (nonempty : key ≠ []) :
    (getSession db other now).1[sessionKey id ++ key]? = db[sessionKey id ++ key]? :=
  getSession_frame db now (sessionKey_marked id key) (record_ne_data size otherSize nonempty)

theorem getElem?_destruct (size : id.length = sessionIdSize) (otherSize : other.length = sessionIdSize)
    (more : List UInt8) :
    (destruct db other)[sessionKey id ++ more]? =
      if other = id then none else db[sessionKey id ++ more]? := by
  have positive : 0 < other.length := by
    rw [otherSize]
    decide
  rw [destruct, if_pos positive, DataStore.getElem?_wipe]
  simp only [record_extended_iff size otherSize]

end

structure Refines (sessions : Sessions) (past : List Effect) : Prop where
  sizes : ∀ (handle : Nat) (id : List UInt8), sessions.handles[handle]? = some (some id) →
    id.length = sessionIdSize
  reads : ∀ id key : List UInt8, id.length = sessionIdSize → key ≠ [] →
    get sessions.db id key = latestPut past id key

theorem get_eq (db : Db) (id key : List UInt8) : get db id key = db[sessionKey id ++ key]?.getD [] :=
  DataStore.get_eq db _

theorem Refines.opened {sessions : Sessions} {past : List Effect} (refines : Refines sessions past)
    {result : Db × Bool} {id : List UInt8} (size : id.length = sessionIdSize)
    (same : ∀ other key : List UInt8, other.length = sessionIdSize → key ≠ [] →
      result.1[sessionKey other ++ key]? = sessions.db[sessionKey other ++ key]?) :
    Refines (sessions.opened result id).1 past := by
  have reads (reader key : List UInt8) (readerSize : reader.length = sessionIdSize) (nonempty : key ≠ []) :
      get result.1 reader key = latestPut past reader key := by
    rw [get_eq, same reader key readerSize nonempty, ← get_eq]
    exact refines.reads reader key readerSize nonempty
  refine ⟨?_, ?_⟩
  · intro handle other alive
    rcases Sessions.mem_opened_handles (List.mem_of_getElem? alive) with old | new
    · obtain ⟨earlier, found⟩ := List.getElem?_of_mem old
      exact refines.sizes earlier other found
    · rw [new.2, size]
  · rw [Sessions.opened_db]
    exact reads

section

variable {sessions : Sessions} {past : List Effect} {handle : Nat} {id : List UInt8}

/-- The step of the history and the step of the store decide alike. -/
theorem Refines.reads_ite (refines : Refines sessions past) {key : List UInt8} (size : id.length = sessionIdSize)
    (nonempty : key ≠ []) (changed : Prop) [Decidable changed] (stored : Option (List UInt8)) :
    (if changed then stored else sessions.db[sessionKey id ++ key]?).getD [] =
      if changed then stored.getD [] else latestPut past id key := by
  split
  · rfl
  · rw [← get_eq]
    exact refines.reads id key size nonempty

theorem Refines.put (refines : Refines sessions past) (alive : sessions.handles[handle]? = some (some id))
    (key value : List UInt8) :
    Refines { sessions with db := put sessions.db id key value } (.put id key value :: past) := by
  have size := refines.sizes handle id alive
  refine ⟨refines.sizes, ?_⟩
  intro reader wanted readerSize nonempty
  simp only [get_eq, Session.put, DataStore.getElem?_put, data_eq_iff readerSize size]
  rw [refines.reads_ite readerSize nonempty, latestPut]
  rfl

theorem Refines.destroy (refines : Refines sessions past)
    (alive : sessions.handles[handle]? = some (some id)) :
    Refines ⟨destruct sessions.db id, sessions.handles.set handle none⟩
      (.wipe (fun other => other == id) :: past) := by
  have size := refines.sizes handle id alive
  refine ⟨?_, ?_⟩
  · intro other reader still
    rw [List.getElem?_set] at still
    split at still
    · split at still <;> simp at still
    · exact refines.sizes other reader still
  · intro reader wanted readerSize nonempty
    simp only [get_eq, getElem?_destruct readerSize size, latestPut, beq_iff_eq, eq_comm (a := id)]
    rw [refines.reads_ite readerSize nonempty]
    rfl

theorem Refines.cleanup (refines : Refines sessions past) (now : Int) :
    Refines { sessions with db := cleanupSessions sessions.db now }
      (.wipe (recordOutdated sessions.db now) :: past) := by
  refine ⟨refines.sizes, ?_⟩
  intro reader wanted readerSize nonempty
  simp only [get_eq, getElem?_cleanupSessions _ _ readerSize]
  rw [refines.reads_ite readerSize nonempty, latestPut]
  rfl

theorem Refines.step {next : Sessions} {operation : Operation}
    (refines : Refines sessions past) (identified : operation.identified = true)
    (taken : sessions.step operation = some next) :
    Refines next (sessions.effects operation ++ past) := by
  cases Sessions.step_took taken with
  | newSession digest now =>
      refine refines.opened (newSessionId_length digest) fun other key size nonempty => ?_
      exact getElem?_construct now size (newSessionId_length digest) nonempty
  | getSession id now => simp [Operation.identified] at identified
  | noCookie now missing => exact refines
  | cookie now found =>
      have size := cookieSessionId_length found
      exact refines.opened size fun other key otherSize nonempty =>
        getElem?_getSession now otherSize size nonempty
  | getRawSession => simp [Operation.identified] at identified
  | put key value alive =>
      simp only [Sessions.effects, alive]
      exact refines.put alive key value
  | get key alive => exact refines
  | destroy alive =>
      simp only [Sessions.effects, alive]
      exact refines.destroy alive
  | cleanup now => exact refines.cleanup now

end

theorem Refines.run {start sessions : Sessions} {past : List Effect} {operations : List Operation}
    (refines : Refines start past) (identified : ∀ operation ∈ operations, operation.identified = true)
    (reached : run Sessions.step start operations = some sessions) :
    Refines sessions (history start operations past) := by
  induction operations generalizing start past with
  | nil =>
      cases reached
      exact refines
  | cons operation operations ih =>
      have first := identified operation List.mem_cons_self
      cases taken : start.step operation with
      | none => simp [Data.run, taken] at reached
      | some next =>
          simp only [Data.run, taken, Option.bind_some] at reached
          simp only [history, taken]
          exact ih (refines.step first taken) (fun later member => identified later (List.mem_cons_of_mem _ member))
            reached

structure Sessions.Fresh (start : Sessions) : Prop where
  noHandles : start.handles = []
  noData : ∀ key, mark <+: key → start.db[key]? = none

theorem Sessions.Fresh.refines {start : Sessions} (fresh : start.Fresh) : Refines start [] where
  sizes handle id alive := by simp [fresh.noHandles] at alive
  reads id key _ _ := by
    rw [get_eq, fresh.noData _ (sessionKey_marked id key)]
    rfl

theorem latestPut_unconcerned {effects past : List Effect} {reader wanted : List UInt8}
    (unconcerned : ∀ effect ∈ effects, ¬ effect.Concerns reader) :
    latestPut (effects ++ past) reader wanted = latestPut past reader wanted := by
  induction effects with
  | nil => rfl
  | cons effect effects ih =>
      have first := unconcerned effect List.mem_cons_self
      have rest := ih fun later member => unconcerned later (List.mem_cons_of_mem _ member)
      cases effect with
      | put id key value =>
          have other : ¬ (id = reader ∧ key = wanted) := fun same => first same.1
          rw [List.cons_append, latestPut, if_neg other, rest]
      | wipe ids =>
          have spared : ¬ ids reader = true := first
          rw [List.cons_append, latestPut, if_neg spared, rest]

/-- In every run, a session reads what was put under its id last and has not been
wiped since, and a call changes the reads of no session but those it concerns. -/
theorem sessions_get_latestPut {start sessions : Sessions} (fresh : start.Fresh)
    (operations : List Operation) (identified : ∀ operation ∈ operations, operation.identified = true)
    (reached : run Sessions.step start operations = some sessions)
    (id key : List UInt8) (size : id.length = sessionIdSize) (nonempty : key ≠ []) :
    (∀ handle, sessions.handles[handle]? = some (some id) →
      sessions.call (.get handle key) =
        some (sessions, .value (latestPut (history start operations []) id key))) ∧
    ∀ operation next, operation.identified = true → sessions.step operation = some next →
      (∀ effect ∈ sessions.effects operation, ¬ effect.Concerns id) →
      get next.db id key = get sessions.db id key := by
  have refines := fresh.refines.run identified reached
  have reads := refines.reads id key size nonempty
  constructor
  · intro handle alive
    simp only [Sessions.call, alive, reads]
  · intro operation next allowed taken unconcerned
    rw [(refines.step allowed taken).reads id key size nonempty, latestPut_unconcerned unconcerned, reads]

def repeatedDigest (byte : UInt8) : Digest := ⟨List.replicate 32 byte, List.length_replicate⟩

def emptySessions : Sessions := ⟨∅, []⟩

theorem emptySessions_fresh : emptySessions.Fresh where
  noHandles := rfl
  noData _ _ := Std.ExtTreeMap.getElem?_empty

def twoSessions : List Operation :=
  [.newSession (repeatedDigest 0) 0, .newSession (repeatedDigest 1) 0, .put 0 [0x6b] [0x31],
    .put 1 [0x6b] [0x32], .cleanup 9, .destroy 1]

theorem twoSessions_get_latestPut :
    ∃ sessions, run Sessions.step emptySessions twoSessions = some sessions ∧
      sessions.call (.get 0 [0x6b]) = some (sessions, .value [0x31]) :=
  ⟨_, rfl, (sessions_get_latestPut emptySessions_fresh twoSessions (by decide) rfl
    (newSessionId (repeatedDigest 0)) [0x6b] (newSessionId_length _) (by decide)).1 0 rfl⟩

end Webapp.Session

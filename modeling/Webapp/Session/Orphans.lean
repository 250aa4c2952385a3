import Webapp.Session.Semantics

namespace Webapp.Session

open Webapp.Data

/-! Data without its session's record.  `CleanupSessions` only looks at records,
so that nothing deletes such data any more.
-/

def NoOrphans (db : Db) : Prop :=
  ∀ id key : List UInt8, id.length = sessionIdSize → key ≠ [] →
    db[sessionKey id ++ key]?.isSome → db[sessionKey id]?.isSome

/-- The record is there and old enough for `get_session` to delete it. -/
def expired (db : Db) (id : List UInt8) (now : Int) : Bool :=
  db[sessionKey id]?.any fun record =>
    !(timeDifference now record < 0) && !(timeDifference now record < (sessionExpiry db).1)

def hasData (db : Db) (id : List UInt8) : Bool :=
  db.toList.any fun entry => (sessionKey id).isPrefixOf entry.1 && entry.1 != sessionKey id

def lookupTidy (db : Db) (id : List UInt8) (now : Int) : Bool :=
  !(id.length == sessionIdSize && expired db id now && hasData db id)

/-- What is written under the name is no data, or data of a session whose record
is there. -/
def putTidy (db : Db) (name : List UInt8) : Bool :=
  decide (name.length ≤ sessionIdSize) || db[sessionKey (name.take sessionIdSize)]?.isSome

def Sessions.tidy (sessions : Sessions) : Operation → Bool
  | .getSession id now => lookupTidy sessions.db id now
  | .getCookieSession cookies beyond now =>
      match cookieSessionId cookies beyond with
      | some id => lookupTidy sessions.db id now
      | none => true
  | .put handle key _ =>
      match sessions.handles[handle]? with
      | some (some id) => putTidy sessions.db (id ++ key)
      | _ => true
  | _ => true

section

variable {db other : Db} {id name : List UInt8}

theorem hasData_iff : hasData db id = true ↔ ∃ key, key ≠ [] ∧ db[sessionKey id ++ key]?.isSome := by
  simp only [hasData, List.any_eq_true, Bool.and_eq_true, List.isPrefixOf_iff_prefix, bne_iff_ne]
  constructor
  · intro entry
    obtain ⟨⟨stored, value⟩, member, ⟨key, rfl⟩, different⟩ := entry
    refine ⟨key, ?_, ?_⟩
    · intro empty
      subst empty
      exact different (List.append_nil _)
    · exact Option.isSome_of_mem (Std.ExtTreeMap.mem_toList_iff_getElem?_eq_some.mp member)
  · intro data
    obtain ⟨key, nonempty, stored⟩ := data
    obtain ⟨value, found⟩ := Option.isSome_iff_exists.mp stored
    refine ⟨(sessionKey id ++ key, value), Std.ExtTreeMap.mem_toList_iff_getElem?_eq_some.mpr found, ?_, ?_⟩
    · exact List.prefix_append _ _
    · simpa using nonempty

theorem noOrphans_congr
    (same : ∀ key : List UInt8, mark <+: key → db[key]?.isSome = other[key]?.isSome) :
    NoOrphans db ↔ NoOrphans other := by
  have record (id : List UInt8) : db[sessionKey id]?.isSome = other[sessionKey id]?.isSome :=
    same (sessionKey id) (mark_sessionKey id)
  simp only [NoOrphans, record, same _ (sessionKey_marked _ _)]

theorem NoOrphans.put_iff (tidy : NoOrphans db) (value : List UInt8) :
    NoOrphans (DataStore.put db (sessionKey name) value) ↔ putTidy db name = true := by
  simp only [putTidy, Bool.or_eq_true, decide_eq_true_eq]
  constructor
  · intro after
    by_contra orphan
    obtain ⟨long, missing⟩ := not_or.mp orphan
    have size : (name.take sessionIdSize).length = sessionIdSize := by
      rw [List.length_take]
      omega
    have record := after (name.take sessionIdSize) (name.drop sessionIdSize) size
      (by simpa using long) (by
        rw [sessionKey_append, List.take_append_drop, DataStore.getElem?_put, if_pos rfl]
        rfl)
    rw [DataStore.getElem?_put, if_neg] at record
    · exact missing record
    · intro same
      rw [sessionKey_inj.mp same] at long
      omega
  · intro allowed id key size nonempty stored
    rw [DataStore.getElem?_put] at stored ⊢
    split
    · rfl
    · split at stored
      · rename_i same
        rw [sessionKey_append, sessionKey_inj] at same
        subst same
        have positive := List.length_pos_iff.mpr nonempty
        rw [List.length_append, ← size, List.take_left] at allowed
        exact allowed.resolve_left (by omega)
      · exact tidy id key size nonempty stored

theorem NoOrphans.wipe (tidy : NoOrphans db) (name : List UInt8) :
    NoOrphans (DataStore.wipe db (sessionKey name)) := by
  intro id key size nonempty stored
  rw [DataStore.getElem?_wipe] at stored ⊢
  split at stored
  · simp at stored
  · rename_i outside
    rw [if_neg fun within => outside (within.trans (List.prefix_append _ _))]
    exact tidy id key size nonempty stored

theorem NoOrphans.destruct (tidy : NoOrphans db) (id : List UInt8) : NoOrphans (destruct db id) := by
  rw [Session.destruct]
  split
  · exact tidy.wipe id
  · exact tidy

theorem NoOrphans.cleanupSessions (tidy : NoOrphans db) (now : Int) :
    NoOrphans (cleanupSessions db now) := by
  intro id key size nonempty stored
  have record := getElem?_cleanupSessions db now size []
  rw [getElem?_cleanupSessions db now size] at stored
  rw [List.append_nil] at record
  rw [record]
  split at stored
  · simp at stored
  · rename_i spared
    rw [if_neg spared]
    exact tidy id key size nonempty stored

theorem NoOrphans.construct (tidy : NoOrphans db) (now : Int) (size : id.length = sessionIdSize) :
    NoOrphans (construct db id now) := by
  rw [Session.construct]
  split
  · exact (tidy.put_iff _).mpr (by simp [putTidy, size])
  · exact tidy

/-- The session is renewed: nothing is stored that was not there before. -/
theorem NoOrphans.renew (tidy : NoOrphans db) (now : Int) (present : db[sessionKey id]?.isSome) :
    NoOrphans (Session.construct (sessionExpiry db).2 id now) := by
  refine (noOrphans_congr fun key marked => ?_).mpr tidy
  have kept := sessionExpiry_getElem? db marked
  rw [Session.construct]
  split
  · rw [DataStore.getElem?_put]
    split
    · rename_i same
      rw [← same, present]
      rfl
    · rw [kept]
  · rw [kept]

theorem NoOrphans.erase_iff (tidy : NoOrphans db) :
    NoOrphans ((sessionExpiry db).2.erase (sessionKey id)) ↔
      ¬ (id.length = sessionIdSize ∧ hasData db id = true) := by
  have erased (key : List UInt8) (marked : mark <+: key) :
      ((sessionExpiry db).2.erase (sessionKey id))[key]? = if sessionKey id = key then none else db[key]? := by
    rw [DataStore.getElem?_erase, sessionExpiry_getElem? db marked]
  have record (other : List UInt8) :
      ((sessionExpiry db).2.erase (sessionKey id))[sessionKey other]? =
        if id = other then none else db[sessionKey other]? := by
    have marked : mark <+: sessionKey other := List.prefix_append _ _
    rw [erased _ marked]
    simp only [sessionKey_inj]
  constructor
  · intro after both
    obtain ⟨size, data⟩ := both
    obtain ⟨key, nonempty, stored⟩ := hasData_iff.mp data
    have orphan := after id key size nonempty (by
      rw [erased _ (sessionKey_marked id key), if_neg (record_ne_data size size nonempty)]
      exact stored)
    rw [record, if_pos rfl] at orphan
    simp at orphan
  · intro harmless other key size nonempty stored
    rw [erased _ (sessionKey_marked other key)] at stored
    split at stored
    · simp at stored
    · rw [record, if_neg]
      · exact tidy other key size nonempty stored
      · intro same
        subst same
        exact harmless ⟨size, hasData_iff.mpr ⟨key, nonempty, stored⟩⟩

theorem NoOrphans.getSession_iff (tidy : NoOrphans db) (now : Int) :
    NoOrphans (getSession db id now).1 ↔ lookupTidy db id now = true := by
  rw [getSession_eq]
  cases found : db[sessionKey id]? with
  | none => simp [lookupTidy, expired, found, tidy]
  | some record =>
      by_cases future : timeDifference now record < 0
      · simp [lookupTidy, expired, found, tidy, future]
      · by_cases live : timeDifference now record < (sessionExpiry db).1
        · have renewed : NoOrphans (Session.construct (sessionExpiry db).2 id now) :=
            tidy.renew now (by rw [found]; rfl)
          simp [lookupTidy, expired, found, future, live, renewed]
        · have late : expired db id now = true := by simp [expired, found, future, live]
          simp only [if_neg future, if_neg live, tidy.erase_iff, lookupTidy, late, Bool.and_true,
            Bool.not_eq_true', Bool.and_eq_false_iff, beq_eq_false_iff_ne, not_and_or, ne_eq,
            Bool.not_eq_true]

end

theorem NoOrphans.step_iff {sessions next : Sessions} {operation : Operation}
    (tidy : NoOrphans sessions.db) (taken : sessions.step operation = some next) :
    NoOrphans next.db ↔ sessions.tidy operation = true := by
  cases Sessions.step_took taken with
  | newSession digest now =>
      simp only [Sessions.opened_db, Sessions.tidy, iff_true]
      exact tidy.construct now (newSessionId_length digest)
  | getSession id now =>
      rw [Sessions.opened_db]
      exact tidy.getSession_iff now
  | noCookie now missing => simp [Sessions.tidy, missing, tidy]
  | cookie now found =>
      simp only [Sessions.opened_db, Sessions.tidy, found]
      exact tidy.getSession_iff now
  | getRawSession =>
      simp only [Sessions.opened_db, Sessions.tidy, iff_true]
      exact tidy
  | put key value alive =>
      simp only [Sessions.tidy, alive, put, sessionKey_append]
      exact tidy.put_iff value
  | get key alive => simp [Sessions.tidy, tidy]
  | destroy alive =>
      simp only [Sessions.tidy, iff_true]
      exact tidy.destruct _
  | cleanup now =>
      simp only [Sessions.tidy, iff_true]
      exact tidy.cleanupSessions now

/-- A run never leaves orphans exactly if each of its calls is tidy. -/
theorem sessions_noOrphans_iff {start : Sessions} (tidy : NoOrphans start.db) (operations : List Operation) :
    Always Sessions.step (fun sessions => NoOrphans sessions.db) start operations ↔
      Along Sessions.step (fun sessions operation => sessions.tidy operation = true) start operations :=
  always_iff_along tidy NoOrphans.step_iff

theorem emptySessions_noOrphans : NoOrphans emptySessions.db := by
  intro id key _ _ stored
  rw [emptySessions_fresh.noData _ (sessionKey_marked id key)] at stored
  simp at stored

theorem twoSessions_noOrphans :
    Always Sessions.step (fun sessions => NoOrphans sessions.db) emptySessions twoSessions :=
  (sessions_noOrphans_iff emptySessions_noOrphans twoSessions).mpr (by decide)

def lookedUpLate : List Operation :=
  [.newSession (repeatedDigest 0) 0, .put 0 [0x6b] [0x31],
    .getSession (newSessionId (repeatedDigest 0)) 604800]

/-- The look-up deletes the record and leaves the value. -/
theorem lookedUpLate_orphan :
    ∃ sessions, run Sessions.step emptySessions lookedUpLate = some sessions ∧
      sessions.db[sessionKey (newSessionId (repeatedDigest 0))]? = none ∧
      sessions.db[sessionKey (newSessionId (repeatedDigest 0)) ++ [0x6b]]? = some [0x31] ∧
      ¬ NoOrphans sessions.db := by
  refine ⟨_, rfl, rfl, rfl, ?_⟩
  intro tidy
  exact absurd (tidy (newSessionId (repeatedDigest 0)) [0x6b] (newSessionId_length _) (by decide) rfl)
    (by decide)

end Webapp.Session

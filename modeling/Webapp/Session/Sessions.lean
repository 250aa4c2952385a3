import Webapp.Session.Store

namespace Webapp.Session

open Webapp.Data

/-- The loop of `Sessions::get_session`: the database and whether a session was
made. -/
def getSessionLoop (now : Int) (id : List UInt8) : List (List UInt8 × List UInt8) → Db → Bool → Db × Bool
  | [], db, found => (db, found)
  | (key, value) :: entries, db, found =>
      if timeDifference now value < 0 then (db, false)
      else
        let expiry := sessionExpiry db
        if timeDifference now value < expiry.1 then
          getSessionLoop now id entries (construct expiry.2 id now) true
        else getSessionLoop now id entries (expiry.2.erase key) found

def getSession (db : Db) (id : List UInt8) (now : Int) : Db × Bool :=
  getSessionLoop now id
    ((seek db (sessionKey id)).takeWhile fun entry => compare entry.1 (sessionKey id) != .gt) db false

/-- The loop of `Sessions::CleanupSessions` over its snapshot. -/
def cleanupLoop (now : Int) : List (List UInt8 × List UInt8) → Db → Db
  | [], db => db
  | (key, value) :: entries, db =>
      if mark.isPrefixOf key = false ∨ key.length ≠ 2 + sessionIdSize then cleanupLoop now entries db
      else if timeDifference now value < 0 then cleanupLoop now entries (DataStore.wipe db key)
      else
        let expiry := sessionExpiry db
        if expiry.1 < timeDifference now value then
          cleanupLoop now entries (DataStore.wipe expiry.2 key)
        else cleanupLoop now entries expiry.2

def cleanupSessions (db : Db) (now : Int) : Db := cleanupLoop now db.toList db

/-- "sessionid=" -/
def sessionIdStr : List UInt8 := [0x73, 0x65, 0x73, 0x73, 0x69, 0x6f, 0x6e, 0x69, 0x64, 0x3d]

/-- The scan of `Sessions::get_cookie_session` from `cookie_str` on.  The bound
is checked before a blank is skipped, so that the id may end one byte behind the
header, where `beyond` lies. -/
def scanCookies (beyond : UInt8) : Bool → List UInt8 → Option (List UInt8)
  | _, [] => none
  | atStart, byte :: rest =>
      if (byte :: rest).length < sessionIdStr.length + sessionIdSize then none
      else if byte = 0x20 then
        if (rest ++ [beyond]).take sessionIdStr.length = sessionIdStr then
          some (((rest ++ [beyond]).drop sessionIdStr.length).take sessionIdSize)
        else
          match rest with
          | [] => none
          | _ :: rest => scanCookies beyond false rest
      else if atStart ∧ (byte :: rest).take sessionIdStr.length = sessionIdStr then
        some (((byte :: rest).drop sessionIdStr.length).take sessionIdSize)
      else scanCookies beyond false rest

/-- `Sessions::get_cookie_session`: the id it asks for, if any. -/
def cookieSessionId (cookies : List UInt8) (beyond : UInt8) : Option (List UInt8) :=
  if cookies.length < sessionIdStr.length + sessionIdSize then none
  else (scanCookies beyond true cookies).filter fun id => !(decide (id.length < sessionIdSize))

def hexDigit (value : Nat) : UInt8 := UInt8.ofNat (if value < 10 then 0x30 + value else 0x37 + value)

structure Digest where
  bytes : List UInt8
  length_eq : bytes.length = 32

/-- The id `Sessions::new_session` makes of a digest. -/
def newSessionId (digest : Digest) : List UInt8 :=
  (digest.bytes.take (sessionIdSize / 2)).flatMap fun byte =>
    [hexDigit (byte.toNat / 16), hexDigit (byte.toNat % 16)]

/-- The database and the sessions the scripts hold; a deleted one is `none`. -/
structure Sessions where
  db : Db
  handles : List (Option (List UInt8))

inductive Operation where
  | newSession (digest : Digest) (now : Int)
  | getSession (id : List UInt8) (now : Int)
  | getCookieSession (cookies : List UInt8) (beyond : UInt8) (now : Int)
  | getRawSession
  | put (handle : Nat) (key value : List UInt8)
  | get (handle : Nat) (key : List UInt8)
  | destroy (handle : Nat)
  | cleanup (now : Int)

inductive Reply where
  | session (handle : Option Nat)
  | value (bytes : List UInt8)
  | done
deriving DecidableEq, Repr

namespace Sessions

def opened (sessions : Sessions) (result : Db × Bool) (id : List UInt8) : Sessions × Reply :=
  if result.2 then
    (⟨result.1, sessions.handles ++ [some id]⟩, .session (some sessions.handles.length))
  else (⟨result.1, sessions.handles⟩, .session none)

/-- One call; a script cannot use a session it has destroyed. -/
def call (sessions : Sessions) : Operation → Option (Sessions × Reply)
  | .newSession digest now =>
      let id := newSessionId digest
      some (sessions.opened (construct sessions.db id now, true) id)
  | .getSession id now => some (sessions.opened (getSession sessions.db id now) id)
  | .getCookieSession cookies beyond now =>
      match cookieSessionId cookies beyond with
      | none => some (sessions, .session none)
      | some id => some (sessions.opened (getSession sessions.db id now) id)
  | .getRawSession => some (sessions.opened (sessions.db, true) [])
  | .put handle key value =>
      match sessions.handles[handle]? with
      | some (some id) => some ({ sessions with db := put sessions.db id key value }, .done)
      | _ => none
  | .get handle key =>
      match sessions.handles[handle]? with
      | some (some id) => some (sessions, .value (get sessions.db id key))
      | _ => none
  | .destroy handle =>
      match sessions.handles[handle]? with
      | some (some id) => some (⟨destruct sessions.db id, sessions.handles.set handle none⟩, .done)
      | _ => none
  | .cleanup now => some ({ sessions with db := cleanupSessions sessions.db now }, .done)

def step (sessions : Sessions) (operation : Operation) : Option Sessions :=
  (sessions.call operation).map Prod.fst

inductive Took (sessions : Sessions) : Operation → Sessions → Prop
  | newSession (digest : Digest) (now : Int) :
      Took sessions (.newSession digest now)
        (sessions.opened (construct sessions.db (newSessionId digest) now, true) (newSessionId digest)).1
  | getSession (id : List UInt8) (now : Int) :
      Took sessions (.getSession id now) (sessions.opened (getSession sessions.db id now) id).1
  | noCookie {cookies : List UInt8} {beyond : UInt8} (now : Int) (missing : cookieSessionId cookies beyond = none) :
      Took sessions (.getCookieSession cookies beyond now) sessions
  | cookie {cookies id : List UInt8} {beyond : UInt8} (now : Int) (found : cookieSessionId cookies beyond = some id) :
      Took sessions (.getCookieSession cookies beyond now) (sessions.opened (Session.getSession sessions.db id now) id).1
  | getRawSession : Took sessions .getRawSession (sessions.opened (sessions.db, true) []).1
  | put {handle : Nat} {id : List UInt8} (key value : List UInt8)
      (alive : sessions.handles[handle]? = some (some id)) :
      Took sessions (.put handle key value) { sessions with db := Session.put sessions.db id key value }
  | get {handle : Nat} {id : List UInt8} (key : List UInt8) (alive : sessions.handles[handle]? = some (some id)) :
      Took sessions (.get handle key) sessions
  | destroy {handle : Nat} {id : List UInt8} (alive : sessions.handles[handle]? = some (some id)) :
      Took sessions (.destroy handle) ⟨destruct sessions.db id, sessions.handles.set handle none⟩
  | cleanup (now : Int) :
      Took sessions (.cleanup now) { sessions with db := cleanupSessions sessions.db now }

theorem step_took {sessions next : Sessions} {operation : Operation}
    (taken : sessions.step operation = some next) : Took sessions operation next := by
  obtain ⟨result, called, rfl⟩ := Option.map_eq_some_iff.mp taken
  cases operation with
  | newSession digest now =>
      cases called
      exact .newSession digest now
  | getSession id now =>
      cases called
      exact .getSession id now
  | getCookieSession cookies beyond now =>
      simp only [call] at called
      split at called
      · rename_i missing
        cases called
        exact .noCookie now missing
      · rename_i id found
        cases called
        exact .cookie now found
  | getRawSession =>
      cases called
      exact .getRawSession
  | put handle key value =>
      simp only [call] at called
      split at called
      · rename_i id alive
        cases called
        exact .put key value alive
      · contradiction
  | get handle key =>
      simp only [call] at called
      split at called
      · rename_i id alive
        cases called
        exact .get key alive
      · contradiction
  | destroy handle =>
      simp only [call] at called
      split at called
      · rename_i id alive
        cases called
        exact .destroy alive
      · contradiction
  | cleanup now =>
      cases called
      exact .cleanup now

theorem opened_db (sessions : Sessions) (result : Db × Bool) (id : List UInt8) :
    (sessions.opened result id).1.db = result.1 := by
  rw [opened]
  split <;> rfl

theorem mem_opened_handles {sessions : Sessions} {result : Db × Bool} {id other : List UInt8}
    (alive : some other ∈ (sessions.opened result id).1.handles) :
    some other ∈ sessions.handles ∨ result.2 = true ∧ other = id := by
  rw [opened] at alive
  split at alive
  · rename_i found
    rcases List.mem_append.mp alive with old | new
    · exact Or.inl old
    · exact Or.inr ⟨found, by simpa using new⟩
  · exact Or.inl alive

end Sessions

/-! What the calls do to the keys of sessions.  Those begin with the mark, which
the key of the expiry setting does not. -/

theorem sessionExp_unmarked {key : List UInt8} (marked : mark <+: key) : sessionExp ≠ key := by
  intro same
  subst same
  exact absurd marked (by decide)

theorem mark_sessionKey (name : List UInt8) : mark <+: sessionKey name := List.prefix_append mark name

theorem sessionKey_marked (id more : List UInt8) : mark <+: sessionKey id ++ more :=
  ⟨id ++ more, by simp [sessionKey]⟩

theorem sessionKey_append (id key : List UInt8) : sessionKey id ++ key = sessionKey (id ++ key) := by
  rw [sessionKey, sessionKey, List.append_assoc]

theorem sessionKey_inj {id name : List UInt8} : sessionKey id = sessionKey name ↔ id = name :=
  List.append_right_inj mark

theorem sessionExpiry_congr {db other : Db} (same : db[sessionExp]? = other[sessionExp]?) :
    (sessionExpiry db).1 = (sessionExpiry other).1 := by
  simp only [sessionExpiry, DataStore.get_eq, same]
  split <;> rfl

theorem sessionExpiry_getElem? (db : Db) {key : List UInt8} (marked : mark <+: key) :
    (sessionExpiry db).2[key]? = db[key]? := by
  simp only [sessionExpiry]
  split
  · rw [DataStore.getElem?_put, if_neg (sessionExp_unmarked marked)]
  · rfl

theorem sessionExpiry_again (db : Db) : (sessionExpiry (sessionExpiry db).2).1 = (sessionExpiry db).1 := by
  by_cases missing : (DataStore.get db sessionExp).length = 0
  · have stored : (DataStore.put db sessionExp (fromNumber sessionTimeDefault))[sessionExp]? =
        some (fromNumber sessionTimeDefault) := by
      rw [DataStore.getElem?_put, if_pos rfl]
    have first : sessionExpiry db =
        (sessionTimeDefault, DataStore.put db sessionExp (fromNumber sessionTimeDefault)) := by
      simp only [sessionExpiry, if_pos missing]
    have written : strntol (fromNumber sessionTimeDefault) = sessionTimeDefault := by decide
    rw [first]
    simp only [sessionExpiry, DataStore.get_eq, stored, Option.getD_some]
    rw [if_neg (by decide), written]
  · have first : sessionExpiry db = (strntol (DataStore.get db sessionExp), db) := by
      simp only [sessionExpiry, if_neg missing]
    rw [first]
    simp only [first]

def outdated (expiry now : Int) (record : List UInt8) : Bool :=
  timeDifference now record < 0 || expiry < timeDifference now record

def recordOutdated (db : Db) (now : Int) (id : List UInt8) : Bool :=
  db[sessionKey id]?.any (outdated (sessionExpiry db).1 now)

theorem getSession_eq (db : Db) (id : List UInt8) (now : Int) :
    getSession db id now =
      match db[sessionKey id]? with
      | none => (db, false)
      | some record =>
          if timeDifference now record < 0 then (db, false)
          else if timeDifference now record < (sessionExpiry db).1 then
            (construct (sessionExpiry db).2 id now, true)
          else ((sessionExpiry db).2.erase (sessionKey id), false) := by
  rw [getSession, seek_until_greater]
  cases db[sessionKey id]? with
  | none => rfl
  | some record => rfl

theorem construct_frame (db : Db) (now : Int) {id other : List UInt8} (different : sessionKey id ≠ other) :
    (construct db id now)[other]? = db[other]? := by
  rw [construct]
  split
  · rw [DataStore.getElem?_put, if_neg different]
  · rfl

theorem getSession_frame (db : Db) (now : Int) {id other : List UInt8} (marked : mark <+: other)
    (different : sessionKey id ≠ other) : (getSession db id now).1[other]? = db[other]? := by
  have kept := sessionExpiry_getElem? db marked
  rw [getSession_eq]
  split
  · rfl
  · split
    · rfl
    · split
      · rw [construct_frame _ now different, kept]
      · rw [DataStore.getElem?_erase, if_neg different, kept]

theorem wipe_expiry (db : Db) {key : List UInt8} (marked : mark <+: key) :
    (sessionExpiry (DataStore.wipe db key)).1 = (sessionExpiry db).1 := by
  apply sessionExpiry_congr
  rw [DataStore.getElem?_wipe, if_neg]
  intro extended
  exact sessionExp_unmarked (marked.trans extended) rfl

def condemned (expiry now : Int) (other : List UInt8) (entry : List UInt8 × List UInt8) : Bool :=
  mark.isPrefixOf entry.1 && entry.1.length == 2 + sessionIdSize && outdated expiry now entry.2 &&
    entry.1.isPrefixOf other

theorem getElem?_cleanupLoop (now : Int) (entries : List (List UInt8 × List UInt8)) (db : Db)
    {other : List UInt8} (marked : mark <+: other) :
    (cleanupLoop now entries db)[other]? =
      if entries.any (condemned (sessionExpiry db).1 now other) then none else db[other]? := by
  induction entries generalizing db with
  | nil => rfl
  | cons entry entries ih =>
      obtain ⟨key, value⟩ := entry
      -- After a step that keeps the setting, the rest of the loop decides as before.
      have continued {next : Db} (setting : (sessionExpiry next).1 = (sessionExpiry db).1)
          (here : next[other]? = if condemned (sessionExpiry db).1 now other (key, value) then none
            else db[other]?) :
          (cleanupLoop now entries next)[other]? =
            if ((key, value) :: entries).any (condemned (sessionExpiry db).1 now other) then none
            else db[other]? := by
        rw [ih next, setting, here, List.any_cons]
        cases condemned (sessionExpiry db).1 now other (key, value) <;>
          cases entries.any (condemned (sessionExpiry db).1 now other) <;> rfl
      have wiped (next : Db) (same : next[other]? = db[other]?)
          (gone : condemned (sessionExpiry db).1 now other (key, value) = key.isPrefixOf other) :
          (DataStore.wipe next key)[other]? =
            if condemned (sessionExpiry db).1 now other (key, value) then none else db[other]? := by
        rw [DataStore.getElem?_wipe, same, gone]
        simp only [List.isPrefixOf_iff_prefix]
      have kept := sessionExpiry_getElem? db marked
      have setting := sessionExpiry_again db
      simp only [cleanupLoop]
      split
      · rename_i foreign
        refine continued rfl ?_
        have spared : condemned (sessionExpiry db).1 now other (key, value) = false := by
          rcases foreign with unmarked | short
          · simp [condemned, unmarked]
          · simp [condemned, short]
        rw [spared]
        rfl
      · rename_i record
        obtain ⟨markedKey, length⟩ := not_or.mp record
        have isRecord : mark.isPrefixOf key = true ∧ key.length = 2 + sessionIdSize := by
          simpa using And.intro markedKey length
        have markedKey : mark <+: key := List.isPrefixOf_iff_prefix.mp isRecord.1
        split
        · rename_i future
          refine continued (wipe_expiry db markedKey) (wiped db rfl ?_)
          simp [condemned, isRecord, outdated, future]
        · rename_i past
          split
          · rename_i late
            refine continued ((wipe_expiry _ markedKey).trans setting) (wiped _ kept ?_)
            simp [condemned, isRecord, outdated, late]
          · rename_i fresh
            refine continued setting ?_
            have spared : condemned (sessionExpiry db).1 now other (key, value) = false := by
              simp [condemned, outdated, past, fresh]
            rw [spared, kept]
            rfl

theorem sessionKey_length {id : List UInt8} (size : id.length = sessionIdSize) :
    (sessionKey id).length = 2 + sessionIdSize := by
  simp [sessionKey, mark, size]
  omega

theorem any_condemned_iff (db : Db) (expiry now : Int) (other : List UInt8) :
    db.toList.any (condemned expiry now other) = true ↔
      ∃ name record, db[name]? = some record ∧ mark <+: name ∧ name.length = 2 + sessionIdSize ∧
        outdated expiry now record = true ∧ name <+: other := by
  simp only [List.any_eq_true, condemned, Bool.and_eq_true, beq_iff_eq, List.isPrefixOf_iff_prefix, and_assoc,
    Prod.exists, Std.ExtTreeMap.mem_toList_iff_getElem?_eq_some]

theorem getElem?_cleanupSessions (db : Db) (now : Int) {id : List UInt8}
    (size : id.length = sessionIdSize) (more : List UInt8) :
    (cleanupSessions db now)[sessionKey id ++ more]? =
      if recordOutdated db now id then none else db[sessionKey id ++ more]? := by
  rw [cleanupSessions, getElem?_cleanupLoop now _ db (sessionKey_marked id more)]
  have same : db.toList.any (condemned (sessionExpiry db).1 now (sessionKey id ++ more)) =
      recordOutdated db now id := by
    rw [Bool.eq_iff_iff, any_condemned_iff, recordOutdated, Option.any_eq_true]
    constructor
    · intro entry
      obtain ⟨key, record, found, _, length, late, extended⟩ := entry
      have exactly : key = sessionKey id := by
        have begins : sessionKey id <+: sessionKey id ++ more := List.prefix_append _ _
        exact (List.prefix_of_prefix_length_le extended begins (by rw [length, sessionKey_length size])).eq_of_length
          (by rw [length, sessionKey_length size])
      subst exactly
      exact ⟨record, found, late⟩
    · intro record
      obtain ⟨record, found, late⟩ := record
      exact ⟨sessionKey id, record, found, mark_sessionKey id, sessionKey_length size, late, List.prefix_append _ _⟩
  rw [same]

end Webapp.Session

import Webapp.Session.Semantics

namespace Webapp.Session

open Webapp.Data

/-! How long a session lives.  Two readers decide it from the record:
`get_session` and `CleanupSessions`.
-/

def live (expiry now : Int) (record : List UInt8) : Bool :=
  !(timeDifference now record < 0) && timeDifference now record < expiry

def Wiped (db : Db) (now : Int) (id : List UInt8) : Prop :=
  id.length = sessionIdSize ∧ db[sessionKey id]?.isSome ∧ (cleanupSessions db now)[sessionKey id]? = none

theorem live_iff {expiry now : Int} {record : List UInt8} :
    live expiry now record = true ↔ strntol record ≤ now ∧ now < strntol record + expiry := by
  simp only [live, Bool.and_eq_true, Bool.not_eq_true', decide_eq_false_iff_not, decide_eq_true_eq]
  rw [timeDifference]
  omega

theorem outdated_iff {expiry now : Int} {record : List UInt8} :
    outdated expiry now record = true ↔ now < strntol record ∨ strntol record + expiry < now := by
  simp only [outdated, Bool.or_eq_true, decide_eq_true_eq]
  rw [timeDifference]
  omega

section

variable {db : Db} {id record : List UInt8}

theorem getSession_found (db : Db) (id : List UInt8) (now : Int) :
    (getSession db id now).2 = db[sessionKey id]?.any (live (sessionExpiry db).1 now) := by
  rw [getSession_eq]
  cases db[sessionKey id]? with
  | none => rfl
  | some record =>
      by_cases future : timeDifference now record < 0
      · simp [live, future]
      · by_cases fresh : timeDifference now record < (sessionExpiry db).1
        · simp [live, future, fresh]
        · simp [live, future, fresh]

theorem cleanupSessions_record (now : Int) (size : id.length = sessionIdSize) :
    (cleanupSessions db now)[sessionKey id]? =
      if recordOutdated db now id then none else db[sessionKey id]? := by
  simpa using getElem?_cleanupSessions db now size []

theorem wiped_iff (now : Int) :
    Wiped db now id ↔ id.length = sessionIdSize ∧ recordOutdated db now id = true := by
  constructor
  · intro wiped
    obtain ⟨size, present, gone⟩ := wiped
    rw [cleanupSessions_record now size] at gone
    split at gone
    · exact ⟨size, by assumption⟩
    · simp [gone] at present
  · intro late
    obtain ⟨size, late⟩ := late
    refine ⟨size, ?_, ?_⟩
    · cases found : db[sessionKey id]? with
      | none => simp [recordOutdated, found] at late
      | some record => rfl
    · rw [cleanupSessions_record now size, if_pos late]

/-- The look-up and the clean-up agree on a record unless its age is exactly the
expiry setting: the look-up then turns it down and the clean-up keeps it. -/
theorem getSession_agrees_iff (now : Int) (size : id.length = sessionIdSize)
    (stored : db[sessionKey id]? = some record) :
    ((getSession db id now).2 = true ↔ (cleanupSessions db now)[sessionKey id]?.isSome) ↔
      timeDifference now record ≠ (sessionExpiry db).1 ∨ timeDifference now record < 0 := by
  have kept : (cleanupSessions db now)[sessionKey id]?.isSome ↔
      ¬ outdated (sessionExpiry db).1 now record = true := by
    rw [cleanupSessions_record now size, recordOutdated, stored, Option.any_some]
    split <;> simp_all
  rw [kept, getSession_found, stored, Option.any_some, live_iff, outdated_iff]
  simp only [timeDifference]
  omega

end

def firstSession : Db := construct ∅ (newSessionId (repeatedDigest 0)) 0

theorem getSession_agrees_firstSession :
    (getSession firstSession (newSessionId (repeatedDigest 0)) 604799).2 = true ↔
      (cleanupSessions firstSession 604799)[sessionKey (newSessionId (repeatedDigest 0))]?.isSome :=
  (getSession_agrees_iff 604799 (newSessionId_length _) rfl).mpr (by decide)

/-- A week later to the second the session is not found and not cleaned up. -/
theorem getSession_disagrees_boundary :
    (getSession firstSession (newSessionId (repeatedDigest 0)) 604800).2 = false ∧
      (cleanupSessions firstSession 604800)[sessionKey (newSessionId (repeatedDigest 0))]?.isSome = true :=
  ⟨rfl, rfl⟩

/-- From a time on, the same sessions are found and the same ones cleaned up. -/
def SameLifetimes (before after : Db) (start : Int) : Prop :=
  ∀ id now, start ≤ now →
    (getSession after id now).2 = (getSession before id now).2 ∧ (Wiped after now id ↔ Wiped before now id)

/-- Whether a put under the name changes no lifetime.  Nothing changes when the
new value stands for the same time as the old one.  Otherwise neither may be
found any more, and a record must not appear or be kept any longer. -/
def LifetimeKept (db : Db) (start : Int) (name value : List UInt8) : Prop :=
  let expiry := (sessionExpiry db).1
  (∃ record, db[sessionKey name]? = some record ∧ strntol record = strntol value) ∨
    if name.length = sessionIdSize then
      ∃ record, db[sessionKey name]? = some record ∧
        (expiry < 0 ∨ strntol record + expiry < start ∧ strntol value + expiry < start)
    else
      expiry ≤ 0 ∨ strntol value + expiry ≤ start ∧
        ∀ record, db[sessionKey name]? = some record → strntol record + expiry ≤ start

/-- Two records are found at the same times exactly if they stand for the same
time or neither is found any more. -/
theorem live_same_iff {expiry start : Int} {value : List UInt8} {old : Option (List UInt8)} :
    (∀ now, start ≤ now → (live expiry now value = true ↔ old.any (live expiry now) = true)) ↔
      (∃ record, old = some record ∧ strntol record = strntol value) ∨ expiry ≤ 0 ∨
        strntol value + expiry ≤ start ∧ ∀ record, old = some record → strntol record + expiry ≤ start := by
  simp only [live_iff]
  cases old with
  | none =>
      simp only [Option.any_none, Bool.false_eq_true, iff_false, reduceCtorEq, false_and, exists_false,
        false_or, false_implies, implies_true, and_true]
      constructor
      · intro never
        have now := never (max start (strntol value)) (by omega)
        omega
      · intro condition now later
        omega
  | some record =>
      simp only [Option.any_some, live_iff, Option.some.injEq, forall_eq', exists_eq_left']
      constructor
      · intro same
        have first := same (max start (strntol value)) (by omega)
        have second := same (max start (strntol record)) (by omega)
        have third := same (max start (strntol value + expiry)) (by omega)
        have fourth := same (max start (strntol record + expiry)) (by omega)
        omega
      · intro condition now later
        omega

theorem outdated_same_iff {expiry start : Int} {value : List UInt8} {old : Option (List UInt8)} :
    (∀ now, start ≤ now → (outdated expiry now value = true ↔ old.any (outdated expiry now) = true)) ↔
      ∃ record, old = some record ∧ (strntol record = strntol value ∨ expiry < 0 ∨
        strntol record + expiry < start ∧ strntol value + expiry < start) := by
  simp only [outdated_iff]
  cases old with
  | none =>
      simp only [Option.any_none, Bool.false_eq_true, iff_false, reduceCtorEq, false_and, exists_false]
      intro never
      have now := never (max start (strntol value + expiry + 1)) (by omega)
      omega
  | some record =>
      simp only [Option.any_some, outdated_iff, Option.some.injEq, exists_eq_left']
      constructor
      · intro same
        have first := same (max start (strntol value)) (by omega)
        have second := same (max start (strntol record)) (by omega)
        have third := same (max start (strntol value + expiry)) (by omega)
        have fourth := same (max start (strntol record + expiry)) (by omega)
        omega
      · intro condition now later
        omega

section

variable (db : Db) (start : Int) (name value : List UInt8)

theorem put_expiry :
    (sessionExpiry (DataStore.put db (sessionKey name) value)).1 = (sessionExpiry db).1 := by
  apply sessionExpiry_congr
  rw [DataStore.getElem?_put, if_neg]
  intro same
  exact sessionExp_unmarked (List.prefix_append mark name) same.symm

theorem put_getSession (id : List UInt8) (now : Int) :
    (getSession (DataStore.put db (sessionKey name) value) id now).2 =
      if name = id then live (sessionExpiry db).1 now value else (getSession db id now).2 := by
  rw [getSession_found, getSession_found, put_expiry, DataStore.getElem?_put]
  simp only [sessionKey_inj]
  split <;> rfl

theorem put_recordOutdated (id : List UInt8) (now : Int) :
    recordOutdated (DataStore.put db (sessionKey name) value) now id =
      if name = id then outdated (sessionExpiry db).1 now value else recordOutdated db now id := by
  rw [recordOutdated, recordOutdated, put_expiry, DataStore.getElem?_put]
  simp only [sessionKey_inj]
  split <;> rfl

/-- Only the session whose record has the written name can change. -/
theorem sameLifetimes_put_iff :
    SameLifetimes db (DataStore.put db (sessionKey name) value) start ↔
      (∀ now, start ≤ now → (live (sessionExpiry db).1 now value = true ↔
          db[sessionKey name]?.any (live (sessionExpiry db).1 now) = true)) ∧
        (name.length = sessionIdSize → ∀ now, start ≤ now →
          (outdated (sessionExpiry db).1 now value = true ↔
            db[sessionKey name]?.any (outdated (sessionExpiry db).1 now) = true)) := by
  simp only [SameLifetimes, wiped_iff, put_getSession, put_recordOutdated]
  constructor
  · intro same
    refine ⟨?_, ?_⟩
    · intro now later
      have found := (same name now later).1
      rw [if_pos rfl, getSession_found] at found
      rw [found]
    · intro size now later
      have wiped := (same name now later).2
      rw [if_pos rfl] at wiped
      simpa only [size, true_and, recordOutdated] using wiped
  · intro same id now later
    obtain ⟨found, wiped⟩ := same
    by_cases named : name = id
    · subst named
      rw [if_pos rfl, if_pos rfl, getSession_found]
      exact ⟨Bool.eq_iff_iff.mpr (found now later), and_congr_right fun size => wiped size now later⟩
    · rw [if_neg named, if_neg named]
      exact ⟨rfl, Iff.rfl⟩

theorem lifetimeKept_iff :
    SameLifetimes db (DataStore.put db (sessionKey name) value) start ↔ LifetimeKept db start name value := by
  rw [sameLifetimes_put_iff, live_same_iff, outdated_same_iff, LifetimeKept]
  cases db[sessionKey name]? with
  | none =>
      by_cases size : name.length = sessionIdSize
      · simp [size]
      · simp [size]
  | some record =>
      by_cases size : name.length = sessionIdSize
      · simp only [size, Option.some.injEq, forall_eq', exists_eq_left', if_true, forall_const]
        omega
      · simp [size]

end

/-- A put leaves every lifetime as it is exactly if the value stands for the time
that was stored there before, or neither can make a difference any more. -/
theorem put_lifetimes_iff {sessions next : Sessions} {handle : Nat} {id : List UInt8} (key value : List UInt8)
    (alive : sessions.handles[handle]? = some (some id))
    (stored : sessions.step (.put handle key value) = some next) (start : Int) :
    SameLifetimes sessions.db next.db start ↔ LifetimeKept sessions.db start (id ++ key) value := by
  obtain ⟨result, called, rfl⟩ := Option.map_eq_some_iff.mp stored
  simp only [Sessions.call, alive, Option.some.injEq] at called
  subst called
  simp only [put, sessionKey_append]
  exact lifetimeKept_iff sessions.db start (id ++ key) value

def firstSessions : Sessions := ⟨firstSession, [some (newSessionId (repeatedDigest 0))]⟩

def firstPut : Sessions :=
  { firstSessions with db := put firstSession (newSessionId (repeatedDigest 0)) [0x6b] [0x76] }

theorem firstPut_stored :
    firstPut.db[sessionKey (newSessionId (repeatedDigest 0) ++ [0x6b])]? = some [0x76] := by
  rw [firstPut, put, sessionKey_append, DataStore.getElem?_put, if_pos rfl]

theorem put_lifetimes_overwrite :
    ∃ next, firstPut.step (.put 0 [0x6b] [0x77]) = some next ∧ SameLifetimes firstPut.db next.db 0 := by
  have alive : firstPut.handles[0]? = some (some (newSessionId (repeatedDigest 0))) := rfl
  have kept : LifetimeKept firstPut.db 0 (newSessionId (repeatedDigest 0) ++ [0x6b]) [0x77] :=
    Or.inl ⟨[0x76], firstPut_stored, by decide⟩
  exact ⟨_, rfl, (put_lifetimes_iff [0x6b] [0x77] alive rfl 0).mpr kept⟩

/-- Under the empty key a put replaces the record, and under any other key it
makes a record for a longer id, which `get_session` accepts. -/
theorem put_changes_lifetimes :
    run Sessions.step emptySessions [.newSession (repeatedDigest 0) 0] = some firstSessions ∧
      (∃ next, firstSessions.step (.put 0 [] [0x31]) = some next ∧
        (getSession firstSessions.db (newSessionId (repeatedDigest 0)) 0).2 = true ∧
        (getSession next.db (newSessionId (repeatedDigest 0)) 0).2 = false ∧
        ¬ SameLifetimes firstSessions.db next.db 0) ∧
      ∃ next, firstSessions.step (.put 0 [0x6b] [0x30]) = some next ∧
        (getSession firstSessions.db (newSessionId (repeatedDigest 0) ++ [0x6b]) 0).2 = false ∧
        (getSession next.db (newSessionId (repeatedDigest 0) ++ [0x6b]) 0).2 = true ∧
        ¬ SameLifetimes firstSessions.db next.db 0 := by
  refine ⟨rfl, ⟨_, rfl, by decide, by decide, ?_⟩, ⟨_, rfl, by decide, by decide, ?_⟩⟩
  · intro same
    exact absurd (same (newSessionId (repeatedDigest 0)) 0 (Int.le_refl 0)).1 (by decide)
  · intro same
    exact absurd (same (newSessionId (repeatedDigest 0) ++ [0x6b]) 0 (Int.le_refl 0)).1 (by decide)

end Webapp.Session

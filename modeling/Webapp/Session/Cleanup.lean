import Webapp.Session.Lifetime

namespace Webapp.Session

/-! What `CleanupSessions` leaves of the store. -/

/-- The key belongs to a session whose record lies in the future or is older than
the expiry time. -/
def Expired (db : Db) (now : Int) (key : List UInt8) : Prop :=
  ∃ name record, db[name]? = some record ∧ name.length = 2 + sessionIdSize ∧ mark <+: name ∧ name <+: key ∧
    (now < strntol record ∨ strntol record + (sessionExpiry db).1 < now)

/-- The only thing that is ever written: a setting that was missing or empty. -/
def DefaultSet (before after : Db) (key : List UInt8) : Prop :=
  key = sessionExp ∧ before[key]?.getD [] = [] ∧ after[key]? = some (fromNumber sessionTimeDefault)

/-- The key is as before, or it is the setting. -/
def Kept (before after : Db) (key : List UInt8) : Prop :=
  after[key]? = before[key]? ∨ DefaultSet before after key

theorem Kept.trans {first second third : Db} {key : List UInt8} (begins : Kept first second key)
    (ends : Kept second third key) : Kept first third key := by
  rcases begins with same | set
  · rcases ends with again | set
    · exact Or.inl (again.trans same)
    · exact Or.inr ⟨set.1, same ▸ set.2.1, set.2.2⟩
  · rcases ends with again | later
    · exact Or.inr ⟨set.1, set.2.1, again.trans set.2.2⟩
    · exact Or.inr ⟨set.1, set.2.1, later.2.2⟩

theorem sessionExpiry_kept (db : Db) (key : List UInt8) : Kept db (sessionExpiry db).2 key := by
  simp only [sessionExpiry]
  split
  · rename_i missing
    rw [Kept, DefaultSet, DataStore.getElem?_put]
    by_cases same : sessionExp = key
    · subst same
      rw [DataStore.get_eq, List.length_eq_zero_iff] at missing
      exact Or.inr ⟨rfl, missing, if_pos rfl⟩
    · exact Or.inl (if_neg same)
  · exact Or.inl rfl

theorem wipe_kept (db : Db) {name key : List UInt8} (marked : mark <+: name) (unmarked : ¬ mark <+: key) :
    Kept db (DataStore.wipe db name) key := by
  refine Or.inl ?_
  rw [DataStore.getElem?_wipe, if_neg]
  intro extended
  exact unmarked (marked.trans extended)

theorem cleanupLoop_kept (now : Int) (entries : List (List UInt8 × List UInt8)) (db : Db) {key : List UInt8}
    (unmarked : ¬ mark <+: key) : Kept db (cleanupLoop now entries db) key := by
  induction entries generalizing db with
  | nil => exact Or.inl rfl
  | cons entry entries ih =>
      obtain ⟨name, value⟩ := entry
      simp only [cleanupLoop]
      split
      · exact ih db
      · rename_i record
        have marked : mark <+: name := by
          rw [not_or, Bool.not_eq_false, List.isPrefixOf_iff_prefix] at record
          exact record.1
        have asked := sessionExpiry_kept db key
        split
        · exact (wipe_kept db marked unmarked).trans (ih _)
        · split
          · exact (asked.trans (wipe_kept _ marked unmarked)).trans (ih _)
          · exact asked.trans (ih _)

theorem any_condemned_iff_expired (db : Db) (now : Int) (key : List UInt8) :
    db.toList.any (condemned (sessionExpiry db).1 now key) = true ↔ Expired db now key := by
  rw [any_condemned_iff]
  constructor
  · intro scanned
    obtain ⟨name, record, found, marked, length, late, extended⟩ := scanned
    exact ⟨name, record, found, length, marked, extended, outdated_iff.mp late⟩
  · intro expired
    obtain ⟨name, record, found, length, marked, extended, late⟩ := expired
    exact ⟨name, record, found, marked, length, outdated_iff.mpr late, extended⟩

/-- `CleanupSessions` takes away what belongs to expired sessions and leaves
everything else, the setting of the default apart. -/
theorem cleanupSessions_exact (db : Db) (now : Int) (key : List UInt8) :
    (Expired db now key → (cleanupSessions db now)[key]? = none) ∧
    (¬ Expired db now key →
      (cleanupSessions db now)[key]? = db[key]? ∨ DefaultSet db (cleanupSessions db now) key) := by
  by_cases marked : mark <+: key
  · have scanned := getElem?_cleanupLoop now db.toList db marked
    have removed := any_condemned_iff_expired db now key
    exact ⟨fun expired => scanned.trans (if_pos (removed.mpr expired)),
      fun spared => Or.inl (scanned.trans (if_neg (mt removed.mp spared)))⟩
  · refine ⟨fun expired => ?_, fun _ => cleanupLoop_kept now db.toList db marked⟩
    obtain ⟨name, _, _, _, begins, extended, _⟩ := expired
    exact absurd (begins.trans extended) marked

theorem cleanupSessions_exact_firstSession :
    (cleanupSessions firstSession 604801)[sessionKey (newSessionId (repeatedDigest 0))]? = none :=
  (cleanupSessions_exact firstSession 604801 _).1
    ⟨_, _, rfl, sessionKey_length (newSessionId_length _), mark_sessionKey _, List.prefix_rfl, by decide⟩

end Webapp.Session

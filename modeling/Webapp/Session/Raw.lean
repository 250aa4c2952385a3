import Webapp.Session.Lifetime

namespace Webapp.Session

open Webapp.Data

/-! The raw session, whose id is empty, beside the identified ones.  Both kinds
write behind the same mark, so that a raw key can be a record of a session or
lie among the data of one.
-/

/-- The sessions, what the raw session has put (the latest first) and the ids
`new_session` has issued. -/
structure Shared where
  sessions : Sessions
  raw : List (List UInt8 × List UInt8)
  issued : List (List UInt8)

/-- The calls on the raw session and on identified ones: all but a look-up of an
id the script brings itself. -/
def Operation.mixed : Operation → Bool
  | .getSession _ _ => false
  | _ => true

namespace Shared

def rawPuts (shared : Shared) : Operation → List (List UInt8 × List UInt8)
  | .put handle key value => if shared.sessions.handles[handle]? = some (some []) then [(key, value)] else []
  | _ => []

def issues : Operation → List (List UInt8)
  | .newSession digest _ => [newSessionId digest]
  | _ => []

def step (shared : Shared) (operation : Operation) : Option Shared :=
  (shared.sessions.step operation).map fun next =>
    ⟨next, shared.rawPuts operation ++ shared.raw, issues operation ++ shared.issued⟩

/-- The raw session reads what it has put last, and the cookie path opens issued
sessions only. -/
structure Undisturbed (shared : Shared) : Prop where
  raw : ∀ key value : List UInt8, shared.raw.lookup key = some value → get shared.sessions.db [] key = value
  cookies : ∀ (cookies : List UInt8) (beyond : UInt8) (now : Int) (next : Sessions) (handle : Nat),
    shared.sessions.call (.getCookieSession cookies beyond now) = some (next, .session (some handle)) →
      ∃ id ∈ shared.issued, next.handles[handle]? = some (some id)

/-- No raw key has the size of an id or begins with an issued one, whichever of
the two comes first. -/
def Apart (shared : Shared) : Operation → Prop
  | .put handle key _ =>
      shared.sessions.handles[handle]? = some (some []) →
        key.length ≠ sessionIdSize ∧ ∀ id ∈ shared.issued, ¬ id <+: key
  | .newSession digest _ => ∀ entry ∈ shared.raw, ¬ newSessionId digest <+: entry.1
  | _ => True

instance Apart.decidable (shared : Shared) : (operation : Operation) → Decidable (shared.Apart operation)
  | .put handle key _ => inferInstanceAs (Decidable (shared.sessions.handles[handle]? = some (some []) →
      key.length ≠ sessionIdSize ∧ ∀ id ∈ shared.issued, ¬ id <+: key))
  | .newSession digest _ => inferInstanceAs (Decidable (∀ entry ∈ shared.raw, ¬ newSessionId digest <+: entry.1))
  | .getSession _ _ | .getCookieSession _ _ _ | .getRawSession | .get _ _ | .destroy _ | .cleanup _ => isTrue trivial

/-- What keeps the two kinds of sessions apart in the store. -/
structure Separate (shared : Shared) : Prop where
  handles : ∀ id : List UInt8, some id ∈ shared.sessions.handles → id = [] ∨ id ∈ shared.issued
  sizes : ∀ id ∈ shared.issued, id.length = sessionIdSize
  keys : ∀ entry ∈ shared.raw, entry.1.length ≠ sessionIdSize ∧ ∀ id ∈ shared.issued, ¬ id <+: entry.1
  records : ∀ id : List UInt8, id.length = sessionIdSize →
    shared.sessions.db[sessionKey id]?.isSome → id ∈ shared.issued
  stored : ∀ key value : List UInt8, shared.raw.lookup key = some value →
    shared.sessions.db[sessionKey key]? = some value

section

variable {shared : Shared} {id : List UInt8}

theorem Separate.undisturbed (separate : shared.Separate) : shared.Undisturbed where
  raw key value put := by
    rw [get_eq, sessionKey_append, List.nil_append, separate.stored key value put]
    rfl
  cookies cookies beyond now next handle called := by
    simp only [Sessions.call] at called
    split at called
    · simp at called
    · rename_i id found
      rw [Sessions.opened, Option.some.injEq] at called
      split at called
      · rename_i opened
        simp only [Prod.mk.injEq, Reply.session.injEq, Option.some.injEq] at called
        obtain ⟨rfl, rfl⟩ := called
        rw [getSession_found] at opened
        have present := Option.isSome_of_any opened
        exact ⟨id, separate.records id (cookieSessionId_length found) present, by simp⟩
      · simp at called

/-- A change of the store that touches neither what the raw session has put nor
adds a record. -/
theorem Separate.change (separate : shared.Separate) {next : Sessions}
    (handles : ∀ id : List UInt8, some id ∈ next.handles →
      some id ∈ shared.sessions.handles ∨ id = [] ∨ id ∈ shared.issued)
    (records : ∀ id : List UInt8, id.length = sessionIdSize → next.db[sessionKey id]?.isSome →
      id ∈ shared.issued ∨ shared.sessions.db[sessionKey id]?.isSome)
    (stored : ∀ entry ∈ shared.raw, next.db[sessionKey entry.1]? = shared.sessions.db[sessionKey entry.1]?) :
    Separate { shared with sessions := next } where
  handles id alive := by
    rcases handles id alive with old | owned
    · exact separate.handles id old
    · exact owned
  sizes := separate.sizes
  keys := separate.keys
  records id size present := by
    rcases records id size present with issued | old
    · exact issued
    · exact separate.records id size old
  stored key value put := by
    obtain ⟨before, after, split, _⟩ := List.lookup_eq_some_iff.mp put
    have member : (key, value) ∈ shared.raw := split ▸ List.mem_append_right before List.mem_cons_self
    rw [stored _ member]
    exact separate.stored key value put

theorem Separate.issue (separate : shared.Separate) (size : id.length = sessionIdSize)
    (apart : ∀ entry ∈ shared.raw, ¬ id <+: entry.1) : Separate { shared with issued := id :: shared.issued } where
  handles other alive := (separate.handles other alive).imp_right (List.mem_cons_of_mem id)
  sizes other member := by
    rcases List.mem_cons.mp member with rfl | old
    · exact size
    · exact separate.sizes other old
  keys entry member := by
    obtain ⟨length, old⟩ := separate.keys entry member
    exact ⟨length, List.forall_mem_cons.mpr ⟨apart entry member, old⟩⟩
  records other otherSize present := List.mem_cons_of_mem _ (separate.records other otherSize present)
  stored := separate.stored

theorem Separate.newSession (separate : shared.Separate) {digest : Digest} (now : Int)
    (apart : ∀ entry ∈ shared.raw, ¬ newSessionId digest <+: entry.1) :
    Separate ⟨(shared.sessions.opened (construct shared.sessions.db (newSessionId digest) now, true)
      (newSessionId digest)).1, shared.raw, newSessionId digest :: shared.issued⟩ := by
  have size := newSessionId_length digest
  refine (separate.issue size apart).change ?_ ?_ ?_
  · intro id alive
    rcases Sessions.mem_opened_handles alive with old | new
    · exact Or.inl old
    · exact Or.inr (Or.inr (new.2 ▸ List.mem_cons_self))
  · intro id _ present
    by_cases named : id = newSessionId digest
    · exact Or.inl (named ▸ List.mem_cons_self)
    · rw [Sessions.opened_db, construct_frame _ now fun same => named (sessionKey_inj.mp same).symm] at present
      exact Or.inr present
  · intro entry member
    rw [Sessions.opened_db, construct_frame]
    intro same
    exact (separate.keys entry member).1 (sessionKey_inj.mp same ▸ size)

theorem getSession_present {db : Db} {now : Int} (after : (getSession db id now).1[sessionKey id]?.isSome) :
    db[sessionKey id]?.isSome := by
  rw [getSession_eq] at after
  cases found : db[sessionKey id]? with
  | none => simp [found] at after
  | some record => rfl

theorem Separate.cookie (separate : shared.Separate) (now : Int) (size : id.length = sessionIdSize) :
    Separate { shared with sessions := (shared.sessions.opened (getSession shared.sessions.db id now) id).1 } := by
  have present (found : (getSession shared.sessions.db id now).2 = true) : id ∈ shared.issued := by
    rw [getSession_found] at found
    exact separate.records id size (Option.isSome_of_any found)
  refine separate.change ?_ ?_ ?_
  · intro other alive
    rcases Sessions.mem_opened_handles alive with old | new
    · exact Or.inl old
    · exact Or.inr (Or.inr (new.2 ▸ present new.1))
  · intro other _ stored
    rw [Sessions.opened_db] at stored
    by_cases named : other = id
    · subst named
      exact Or.inr (getSession_present stored)
    · rw [getSession_frame _ now (mark_sessionKey other) fun same =>
        named (sessionKey_inj.mp same).symm] at stored
      exact Or.inr stored
  · intro entry member
    rw [Sessions.opened_db, getSession_frame _ now (mark_sessionKey entry.1)]
    intro same
    exact (separate.keys entry member).1 (sessionKey_inj.mp same ▸ size)

theorem Separate.rawPut (separate : shared.Separate) {key : List UInt8} (value : List UInt8)
    (apart : key.length ≠ sessionIdSize ∧ ∀ id ∈ shared.issued, ¬ id <+: key) :
    Separate ⟨{ shared.sessions with db := put shared.sessions.db [] key value },
      (key, value) :: shared.raw, shared.issued⟩ where
  handles := separate.handles
  sizes := separate.sizes
  keys := List.forall_mem_cons.mpr ⟨apart, separate.keys⟩
  records id size present := by
    rw [put, sessionKey_append, List.nil_append, DataStore.getElem?_put, if_neg] at present
    · exact separate.records id size present
    · intro same
      exact apart.1 (sessionKey_inj.mp same ▸ size)
  stored other stored put := by
    rw [Session.put, sessionKey_append, List.nil_append, DataStore.getElem?_put]
    by_cases named : other = key
    · subst named
      simpa using put
    · rw [if_neg fun same => named (sessionKey_inj.mp same).symm]
      rw [List.lookup_cons, beq_eq_false_iff_ne.mpr named] at put
      exact separate.stored other stored put

theorem Separate.issued_ne_nil (separate : shared.Separate) (issued : id ∈ shared.issued) : id ≠ [] := by
  intro empty
  have size := separate.sizes id issued
  rw [empty] at size
  contradiction

theorem Separate.put (separate : shared.Separate) (issued : id ∈ shared.issued) (key value : List UInt8) :
    Separate { shared with sessions := { shared.sessions with db := put shared.sessions.db id key value } } := by
  refine separate.change (fun _ alive => Or.inl alive) ?_ ?_
  · intro other size present
    rw [Session.put, sessionKey_append, DataStore.getElem?_put] at present
    split at present
    · rename_i same
      have length := congrArg List.length (sessionKey_inj.mp same)
      rw [List.length_append, size, separate.sizes id issued] at length
      obtain rfl : key = [] := List.eq_nil_of_length_eq_zero (by omega)
      rw [List.append_nil, sessionKey_inj] at same
      exact Or.inl (same ▸ issued)
    · exact Or.inr present
  · intro entry member
    simp only [Session.put, sessionKey_append, DataStore.getElem?_put]
    rw [if_neg]
    intro same
    exact (separate.keys entry member).2 id issued ⟨key, sessionKey_inj.mp same⟩

theorem mem_of_mem_set_none {handles : List (Option (List UInt8))} {handle : Nat}
    (alive : some id ∈ handles.set handle none) : some id ∈ handles := by
  rcases List.mem_or_eq_of_mem_set alive with old | gone
  · exact old
  · contradiction

theorem Separate.destroy (separate : shared.Separate) (handle : Nat) (issued : id ∈ shared.issued) :
    Separate { shared with
      sessions := ⟨destruct shared.sessions.db id, shared.sessions.handles.set handle none⟩ } := by
  have wiped (name : List UInt8) : (destruct shared.sessions.db id)[sessionKey name]? =
      if id <+: name then none else shared.sessions.db[sessionKey name]? := by
    have positive : 0 < id.length := List.length_pos_iff.mpr (separate.issued_ne_nil issued)
    rw [destruct, if_pos positive, DataStore.getElem?_wipe]
    simp only [sessionKey, List.prefix_append_right_inj]
  refine separate.change ?_ ?_ ?_
  · intro other alive
    exact Or.inl (mem_of_mem_set_none alive)
  · intro other _ present
    simp only [wiped] at present
    split at present
    · simp at present
    · exact Or.inr present
  · intro entry member
    simp only [wiped]
    rw [if_neg ((separate.keys entry member).2 id issued)]

theorem Separate.cleanup (separate : shared.Separate) (now : Int) :
    Separate { shared with
      sessions := { shared.sessions with db := cleanupSessions shared.sessions.db now } } := by
  refine separate.change (fun _ alive => Or.inl alive) ?_ ?_
  · intro other _ present
    simp only [cleanupSessions, getElem?_cleanupLoop now _ _ (mark_sessionKey other)] at present
    split at present
    · simp at present
    · exact Or.inr present
  · intro entry member
    simp only [cleanupSessions, getElem?_cleanupLoop now _ _ (mark_sessionKey entry.1)]
    rw [if_neg]
    intro removed
    obtain ⟨⟨key, record⟩, listed, condemned⟩ := List.any_eq_true.mp removed
    simp only [Session.condemned, Bool.and_eq_true, beq_iff_eq, List.isPrefixOf_iff_prefix] at condemned
    obtain ⟨⟨⟨⟨id, rfl⟩, length⟩, _⟩, extended⟩ := condemned
    have size : id.length = sessionIdSize := by
      rw [List.length_append] at length
      exact Nat.add_left_cancel length
    have found : shared.sessions.db[sessionKey id]? = some record :=
      Std.ExtTreeMap.mem_toList_iff_getElem?_eq_some.mp listed
    have issued := separate.records id size (by rw [found]; rfl)
    exact (separate.keys entry member).2 id issued ((List.prefix_append_right_inj mark).mp extended)

theorem Separate.step {next : Shared} {operation : Operation} (separate : shared.Separate)
    (allowed : shared.Apart operation ∧ operation.mixed = true) (taken : shared.step operation = some next) :
    next.Separate := by
  obtain ⟨apart, mixed⟩ := allowed
  obtain ⟨sessions, called, rfl⟩ := Option.map_eq_some_iff.mp taken
  have owner {handle : Nat} {id : List UInt8} (alive : shared.sessions.handles[handle]? = some (some id)) :=
    separate.handles id (List.mem_of_getElem? alive)
  cases Sessions.step_took called with
  | newSession digest now => exact separate.newSession now apart
  | getSession id now => simp [Operation.mixed] at mixed
  | noCookie now missing => exact separate
  | cookie now found => exact separate.cookie now (cookieSessionId_length found)
  | getRawSession =>
      refine separate.change ?_ (fun _ _ present => Or.inr present) fun _ _ => rfl
      intro id alive
      rcases Sessions.mem_opened_handles alive with old | new
      · exact Or.inl old
      · exact Or.inr (Or.inl new.2)
  | put key value alive =>
      rcases owner alive with rfl | issued
      · simp only [rawPuts, if_pos alive]
        exact separate.rawPut value (apart alive)
      · simp only [rawPuts, alive, Option.some.injEq, separate.issued_ne_nil issued, if_false]
        exact separate.put issued key value
  | get key alive => exact separate
  | destroy alive =>
      rcases owner alive with rfl | issued
      · exact separate.change (fun id still => Or.inl (mem_of_mem_set_none still))
          (fun _ _ present => Or.inr present) fun _ _ => rfl
      · exact separate.destroy _ issued
  | cleanup now => exact separate.cleanup now

end

theorem separate_of_fresh {start : Sessions} (fresh : start.Fresh) : Separate ⟨start, [], []⟩ where
  handles id alive := by simp [fresh.noHandles] at alive
  sizes id member := by contradiction
  keys entry member := by contradiction
  records id _ present := by
    rw [fresh.noData _ (mark_sessionKey id)] at present
    contradiction
  stored key value put := by contradiction

/-- As long as raw keys keep away from the ids, the two kinds of sessions do not
disturb each other. -/
theorem raw_undisturbed {start : Sessions} (fresh : start.Fresh) (operations : List Operation)
    (mixed : ∀ operation ∈ operations, operation.mixed = true)
    (apart : Along Shared.step Apart ⟨start, [], []⟩ operations) :
    Always Shared.step Undisturbed ⟨start, [], []⟩ operations :=
  (apart.and_events mixed).always (separate_of_fresh fresh) Separate.step Separate.undisturbed

def apartRun : List Operation :=
  [.newSession (repeatedDigest 0) 0, .getRawSession, .put 0 [0x6b] [0x31], .put 1 [0x6b] [0x32], .destroy 0]

theorem raw_undisturbed_apartRun :
    Always Shared.step Undisturbed ⟨emptySessions, [], []⟩ apartRun :=
  raw_undisturbed emptySessions_fresh apartRun (by decide) (by decide)

/-- A raw key of the size of an id is a session for whoever sends it as a cookie,
and a raw key that begins with an id goes when that session is destroyed. -/
theorem raw_disturbed :
    (∃ shared next, run Shared.step ⟨emptySessions, [], []⟩
        [.getRawSession, .put 0 (List.replicate 32 0x41) [0x30]] = some shared ∧
      shared.issued = [] ∧
      shared.sessions.call (.getCookieSession (sessionIdStr ++ List.replicate 32 0x41) 0 0) =
        some (next, .session (some 1))) ∧
      ∃ shared, run Shared.step ⟨emptySessions, [], []⟩
          [.newSession (repeatedDigest 0) 0, .getRawSession,
            .put 1 (newSessionId (repeatedDigest 0) ++ [0x6b]) [0x76], .destroy 0] = some shared ∧
        shared.raw.lookup (newSessionId (repeatedDigest 0) ++ [0x6b]) = some [0x76] ∧
        get shared.sessions.db [] (newSessionId (repeatedDigest 0) ++ [0x6b]) = [] := by
  refine ⟨⟨_, _, rfl, rfl, rfl⟩, _, rfl, rfl, ?_⟩
  decide

end Shared

end Webapp.Session

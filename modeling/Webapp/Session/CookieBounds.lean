import Webapp.Data.Memory
import Webapp.Session.Cookies

namespace Webapp.Session

open Webapp.Data

/-! The bytes that `get_cookie_session` looks at, by their distance from
`cookies.data`.  Here the header is the first `len` cells of a memory that goes
on behind it.
-/

structure Access where
  start : Nat
  count : Nat
deriving DecidableEq, Repr

def Access.Within (access : Access) (len : Nat) : Prop := access.start + access.count ≤ len

section

variable (memory : Memory UInt8) (len : Nat)

/-- The loop from `cookie_str` on: what it reads and the id it cuts out.  Every
turn moves on, so `len` turns are enough. -/
def cookieLoop : Nat → Nat → List Access × Option (List UInt8)
  | 0, _ => ([], none)
  | turns + 1, cookieStr =>
      if ¬ cookieStr < len then ([], none)
      else if len - cookieStr < sessionIdStr.length + sessionIdSize then ([], none)
      else if memory cookieStr = 0x20 ∨ cookieStr = 0 then
        let name := if memory cookieStr = 0x20 then cookieStr + 1 else cookieStr
        if memory.window name sessionIdStr.length ≠ sessionIdStr then
          let rest := cookieLoop turns (name + 1)
          (⟨cookieStr, 1⟩ :: ⟨name, sessionIdStr.length⟩ :: rest.1, rest.2)
        else
          ([⟨cookieStr, 1⟩, ⟨name, sessionIdStr.length⟩, ⟨name + sessionIdStr.length, sessionIdSize⟩],
            some (memory.window (name + sessionIdStr.length) sessionIdSize))
      else
        let rest := cookieLoop turns (cookieStr + 1)
        (⟨cookieStr, 1⟩ :: rest.1, rest.2)

/-- `Sessions::get_cookie_session` up to the call of `get_session`. -/
def getCookieSession : List Access × Option (List UInt8) :=
  if len < sessionIdStr.length + sessionIdSize then ([], none)
  else
    let scanned := cookieLoop memory len len 0
    (scanned.1, scanned.2.filter fun id => !(decide (id.length < sessionIdSize)))

def blanksBefore : Nat → Nat
  | 0 => 0
  | position + 1 => if memory position = 0x20 then blanksBefore position + 1 else 0

/-- The name stands at the start of the header or behind an odd number of blanks.
Of two blanks in a row the scan steps over the second. -/
def Named (position : Nat) : Prop :=
  memory.window position sessionIdStr.length = sessionIdStr ∧ (position = 0 ∨ blanksBefore memory position % 2 = 1)

/-- The first name from `position` on is followed by 31 bytes, one less than an id has. -/
def CutShort (position : Nat) : Prop :=
  position + 42 ≤ len ∧ Named memory (len - 41) ∧
    ∀ name, position ≤ name → name < len - 41 → ¬ Named memory name

end

section

variable {memory : Memory UInt8} {len : Nat}

theorem blanksBefore_blank {position : Nat} (blank : memory position = 0x20) :
    blanksBefore memory (position + 1) = blanksBefore memory position + 1 := by
  rw [blanksBefore, if_pos blank]

theorem blanksBefore_visible {position : Nat} (visible : memory position ≠ 0x20) :
    blanksBefore memory (position + 1) = 0 := by
  rw [blanksBefore, if_neg visible]

/-- The positions at which a turn of the loop begins have an even number of blanks
before them, and no name but at the start. -/
theorem not_named_even {position : Nat} (inside : position ≠ 0) (even : blanksBefore memory position % 2 = 0) :
    ¬ Named memory position := by
  intro named
  rcases named.2 with start | odd
  · exact inside start
  · omega

theorem not_named_blank {position : Nat} (blank : memory position = 0x20) : ¬ Named memory position := by
  intro named
  have first := congrArg (fun bytes => bytes[0]?) named.1
  rw [Memory.window_getElem? memory (by decide : 0 < sessionIdStr.length), Nat.add_zero, blank] at first
  exact absurd first (by decide)

theorem even_behind_blank {position : Nat} (blank : memory position = 0x20)
    (even : blanksBefore memory position % 2 = 0) : blanksBefore memory (position + 2) % 2 = 0 := by
  rw [blanksBefore, blanksBefore_blank blank]
  split
  · omega
  · rfl

theorem cutShort_advance {position next : Nat} (ahead : position ≤ next)
    (unnamed : ∀ name, position ≤ name → name ≤ next → ¬ Named memory name) :
    CutShort memory len position ↔ CutShort memory len next := by
  constructor
  · intro short
    obtain ⟨room, last, first⟩ := short
    have behind : next < len - 41 := by
      by_contra reached
      exact unnamed (len - 41) (by omega) (by omega) last
    refine ⟨by omega, last, ?_⟩
    intro name reached before
    exact first name (by omega) before
  · intro short
    obtain ⟨room, last, first⟩ := short
    refine ⟨by omega, last, ?_⟩
    intro name reached before
    by_cases passed : name ≤ next
    · exact unnamed name reached passed
    · exact first name (by omega) before

/-- The bound holds for a found id unless the blank before its name is 42 bytes
from the end. -/
theorem cutShort_blank {position : Nat} (blank : memory position = 0x20)
    (even : blanksBefore memory position % 2 = 0) (room : position + 42 ≤ len)
    (found : memory.window (position + 1) sessionIdStr.length = sessionIdStr) :
    position + 43 ≤ len ↔ ¬ CutShort memory len position := by
  have named : Named memory (position + 1) := by
    refine ⟨found, Or.inr ?_⟩
    rw [blanksBefore_blank blank]
    omega
  constructor
  · intro inside short
    exact short.2.2 (position + 1) (by omega) (by omega) named
  · intro whole
    by_contra outside
    have last : len - 41 = position + 1 := by omega
    refine whole ⟨room, last ▸ named, ?_⟩
    intro name reached before
    have here : name = position := by omega
    rw [here]
    exact not_named_blank blank

/-! One turn of the loop. -/

theorem cookieLoop_short (turns : Nat) {cookieStr : Nat} (short : len < cookieStr + 42) :
    cookieLoop memory len turns cookieStr = ([], none) := by
  cases turns with
  | zero => rfl
  | succ turns =>
      have early : len - cookieStr < sessionIdStr.length + sessionIdSize := by
        have size : sessionIdStr.length + sessionIdSize = 42 := rfl
        omega
      rw [cookieLoop, if_pos early, ite_self]

theorem cookieLoop_plain {turns cookieStr : Nat} (room : cookieStr + 42 ≤ len) (visible : memory cookieStr ≠ 0x20)
    (inside : cookieStr ≠ 0) :
    cookieLoop memory len (turns + 1) cookieStr =
      (⟨cookieStr, 1⟩ :: (cookieLoop memory len turns (cookieStr + 1)).1,
        (cookieLoop memory len turns (cookieStr + 1)).2) := by
  have size : sessionIdStr.length + sessionIdSize = 42 := rfl
  rw [cookieLoop, if_neg (by omega), if_neg (by omega), if_neg (not_or.mpr ⟨visible, inside⟩)]

def Compares (memory : Memory UInt8) (cookieStr name : Nat) : Prop :=
  memory cookieStr = 0x20 ∧ name = cookieStr + 1 ∨ memory cookieStr ≠ 0x20 ∧ cookieStr = 0 ∧ name = 0

theorem cookieLoop_compares {turns cookieStr name : Nat} (room : cookieStr + 42 ≤ len)
    (compares : Compares memory cookieStr name) :
    cookieLoop memory len (turns + 1) cookieStr =
      if memory.window name sessionIdStr.length ≠ sessionIdStr then
        (⟨cookieStr, 1⟩ :: ⟨name, sessionIdStr.length⟩ :: (cookieLoop memory len turns (name + 1)).1,
          (cookieLoop memory len turns (name + 1)).2)
      else
        ([⟨cookieStr, 1⟩, ⟨name, sessionIdStr.length⟩, ⟨name + sessionIdStr.length, sessionIdSize⟩],
          some (memory.window (name + sessionIdStr.length) sessionIdSize)) := by
  have size : sessionIdStr.length + sessionIdSize = 42 := rfl
  rw [cookieLoop, if_neg (by omega), if_neg (by omega)]
  rcases compares with ⟨blank, rfl⟩ | ⟨visible, rfl, rfl⟩
  · rw [if_pos (Or.inl blank)]
    simp only [blank, if_true]
  · rw [if_pos (Or.inr rfl)]
    simp only [visible, if_false]

theorem compares_or_plain (memory : Memory UInt8) (cookieStr : Nat) :
    (∃ name, Compares memory cookieStr name) ∨ memory cookieStr ≠ 0x20 ∧ cookieStr ≠ 0 := by
  by_cases blank : memory cookieStr = 0x20
  · exact Or.inl ⟨cookieStr + 1, Or.inl ⟨blank, rfl⟩⟩
  · by_cases start : cookieStr = 0
    · exact Or.inl ⟨0, Or.inr ⟨blank, start, rfl⟩⟩
    · exact Or.inr ⟨blank, start⟩

theorem cutShort_missed (len : Nat) {cookieStr name : Nat} (compares : Compares memory cookieStr name)
    (even : blanksBefore memory cookieStr % 2 = 0)
    (missed : memory.window name sessionIdStr.length ≠ sessionIdStr) :
    blanksBefore memory (name + 1) % 2 = 0 ∧
      (CutShort memory len cookieStr ↔ CutShort memory len (name + 1)) := by
  have absent : ¬ Named memory name := fun named => missed named.1
  rcases compares with ⟨blank, rfl⟩ | ⟨visible, rfl, rfl⟩
  · have evenNext := even_behind_blank blank even
    refine ⟨evenNext, cutShort_advance (by omega) ?_⟩
    intro other reached passed
    obtain rfl | rfl | rfl : other = cookieStr ∨ other = cookieStr + 1 ∨ other = cookieStr + 2 := by omega
    · exact not_named_blank blank
    · exact absent
    · exact not_named_even (by omega) evenNext
  · have evenNext : blanksBefore memory 1 % 2 = 0 := by rw [blanksBefore_visible visible]
    refine ⟨evenNext, cutShort_advance (by omega) ?_⟩
    intro other reached passed
    obtain rfl | rfl : other = 0 ∨ other = 1 := by omega
    · exact absent
    · exact not_named_even (by omega) evenNext

theorem cutShort_found {cookieStr name : Nat} (compares : Compares memory cookieStr name)
    (even : blanksBefore memory cookieStr % 2 = 0) (room : cookieStr + 42 ≤ len)
    (found : memory.window name sessionIdStr.length = sessionIdStr) :
    name + 42 ≤ len ↔ ¬ CutShort memory len cookieStr := by
  rcases compares with ⟨blank, rfl⟩ | ⟨visible, rfl, rfl⟩
  · exact cutShort_blank blank even room found
  · have named : Named memory 0 := ⟨found, Or.inl rfl⟩
    refine iff_of_true room ?_
    intro short
    exact short.2.2 0 (Nat.le_refl 0) (by omega) named

theorem compares_within {cookieStr name : Nat} (compares : Compares memory cookieStr name)
    (room : cookieStr + 42 ≤ len) :
    (Access.mk cookieStr 1).Within len ∧ (Access.mk name sessionIdStr.length).Within len := by
  have size : sessionIdStr.length = 10 := rfl
  have near : name ≤ cookieStr + 1 := by
    rcases compares with ⟨_, rfl⟩ | ⟨_, _, rfl⟩ <;> omega
  simp only [Access.Within, size]
  omega

theorem cookieLoop_within_iff {turns cookieStr : Nat} (enough : len ≤ cookieStr + turns)
    (even : blanksBefore memory cookieStr % 2 = 0) :
    (∀ access ∈ (cookieLoop memory len turns cookieStr).1, access.Within len) ↔
      ¬ CutShort memory len cookieStr := by
  induction turns generalizing cookieStr with
  | zero =>
      refine iff_of_true (by simp [cookieLoop]) ?_
      intro short
      have room := short.1
      omega
  | succ turns ih =>
      by_cases room : cookieStr + 42 ≤ len
      · rcases compares_or_plain memory cookieStr with ⟨name, compares⟩ | ⟨visible, inside⟩
        · obtain ⟨blank, compared⟩ := compares_within compares room
          have reached : cookieStr ≤ name := by
            rcases compares with ⟨_, rfl⟩ | ⟨_, rfl, rfl⟩ <;> omega
          rw [cookieLoop_compares room compares]
          by_cases found : memory.window name sessionIdStr.length = sessionIdStr
          · rw [if_neg (not_not.mpr found), ← cutShort_found compares even room found]
            have size : sessionIdStr.length = 10 := rfl
            have copied : (Access.mk (name + sessionIdStr.length) sessionIdSize).Within len ↔ name + 42 ≤ len := by
              simp only [Access.Within, size, sessionIdSize, Nat.add_assoc, Nat.reduceAdd]
            simp only [List.forall_mem_cons, blank, compared, copied, true_and, List.not_mem_nil,
              false_imp_iff, implies_true, and_true]
          · obtain ⟨evenNext, same⟩ := cutShort_missed len compares even found
            rw [if_pos found, same, ← ih (by omega) evenNext]
            simp only [List.forall_mem_cons, blank, compared, true_and]
        · have first : (Access.mk cookieStr 1).Within len := by
            simp only [Access.Within]
            omega
          have evenNext : blanksBefore memory (cookieStr + 1) % 2 = 0 := by rw [blanksBefore_visible visible]
          have same : CutShort memory len cookieStr ↔ CutShort memory len (cookieStr + 1) := by
            apply cutShort_advance (by omega)
            intro other reached passed
            obtain rfl | rfl : other = cookieStr ∨ other = cookieStr + 1 := by omega
            · exact not_named_even inside even
            · exact not_named_even (by omega) evenNext
          rw [cookieLoop_plain room visible inside, same, ← ih (by omega) evenNext]
          simp only [List.forall_mem_cons, first, true_and]
      · rw [cookieLoop_short (turns + 1) (Nat.not_le.mp room)]
        refine iff_of_true (by simp) ?_
        intro short
        exact room short.1

/-! The loop finds what the scan over the bytes of the header finds. -/

theorem window_header {position : Nat} (inside : position < len) :
    memory.window position (len - position) = memory position :: memory.window (position + 1) (len - (position + 1)) := by
  have count : len - position = 1 + (len - (position + 1)) := by omega
  rw [count, Memory.window_add]
  rfl

theorem window_behind {position : Nat} (inside : position ≤ len) :
    memory.window position (len - position) ++ [memory len] = memory.window position (len - position + 1) := by
  have last : position + (len - position) = len := by omega
  rw [Memory.window_add, last]
  rfl

theorem window_cut (memory : Memory UInt8) (position : Nat) {count : Nat} (room : 42 ≤ count) :
    (memory.window position count).take sessionIdStr.length = memory.window position sessionIdStr.length ∧
      ((memory.window position count).drop sessionIdStr.length).take sessionIdSize =
        memory.window (position + sessionIdStr.length) sessionIdSize := by
  have size : sessionIdStr.length + sessionIdSize = 42 := rfl
  obtain ⟨rest, rfl⟩ := Nat.exists_eq_add_of_le room
  constructor
  · exact memory.window_take (by omega)
  · rw [← size, Nat.add_assoc, Memory.window_drop]
    exact memory.window_take (by omega)

theorem cookieLoop_scan {turns cookieStr : Nat} (enough : len ≤ cookieStr + turns) :
    (cookieLoop memory len turns cookieStr).2 =
      scanCookies (memory len) (decide (cookieStr = 0)) (memory.window cookieStr (len - cookieStr)) := by
  have size : sessionIdStr.length + sessionIdSize = 42 := rfl
  induction turns generalizing cookieStr with
  | zero =>
      have ended : len - cookieStr = 0 := by omega
      rw [ended]
      rfl
  | succ turns ih =>
      by_cases room : cookieStr + 42 ≤ len
      · have long : ¬ len - (cookieStr + 1) + 1 < sessionIdStr.length + sessionIdSize := by omega
        have header : memory.window cookieStr (len - cookieStr) =
            memory cookieStr :: memory.window (cookieStr + 1) (len - (cookieStr + 1)) := window_header (by omega)
        by_cases blank : memory cookieStr = 0x20
        · obtain ⟨name, id⟩ := window_cut memory (cookieStr + 1)
            (show 42 ≤ len - (cookieStr + 1) + 1 by omega)
          have stepped : (memory.window (cookieStr + 1) (len - (cookieStr + 1))).tail =
              memory.window (cookieStr + 2) (len - (cookieStr + 2)) := by
            rw [window_header (by omega)]
            rfl
          rw [cookieLoop_compares room (Or.inl ⟨blank, rfl⟩), header, blank, scanCookies_blank,
            Memory.window_length, if_neg long, window_behind (by omega), name, id, stepped, ite_not, apply_ite Prod.snd,
            ih (by omega)]
          rfl
        · by_cases start : cookieStr = 0
          · subst start
            have whole : ¬ len - 0 < sessionIdStr.length + sessionIdSize := by omega
            obtain ⟨name, id⟩ := window_cut memory 0 (show 42 ≤ len - 0 by omega)
            rw [cookieLoop_compares room (Or.inr ⟨blank, rfl, rfl⟩), header, decide_eq_true rfl,
              scanCookies_start _ blank, ← header, Memory.window_length, if_neg whole, name, id, ite_not,
              apply_ite Prod.snd, ih (by omega)]
            rfl
          · have plain : 0x20 ∉ [memory cookieStr] := by simpa using Ne.symm blank
            have passed : scanCookies (memory len) false
                (memory cookieStr :: memory.window (cookieStr + 1) (len - (cookieStr + 1))) =
                  scanCookies (memory len) false (memory.window (cookieStr + 1) (len - (cookieStr + 1))) :=
              scanCookies_plain (memory len) plain _
            rw [cookieLoop_plain room blank start, header, decide_eq_false start, passed, ih (by omega)]
            rfl
      · have short : (memory.window cookieStr (len - cookieStr)).length < sessionIdStr.length + sessionIdSize := by
          rw [Memory.window_length]
          omega
        rw [cookieLoop_short (turns + 1) (Nat.not_le.mp room), scanCookies_short _ short]

end

/-- Every byte that is looked at lies inside the header, unless the first name
that the scan meets is followed by 31 bytes. -/
theorem getCookieSession_within_iff (memory : Memory UInt8) (len : Nat) :
    (∀ access ∈ (getCookieSession memory len).1, access.Within len) ↔ ¬ CutShort memory len 0 := by
  rw [getCookieSession]
  split
  · rename_i short
    refine iff_of_true (by simp) ?_
    intro cut
    have room := cut.1
    have size : sessionIdStr.length + sessionIdSize = 42 := rfl
    omega
  · exact cookieLoop_within_iff (by omega) rfl

/-- A header whose last 42 bytes are a blank, the name and 31 bytes: the last byte
of the id is the one behind the header. -/
theorem getCookieSession_beyond :
    let header := cookieHeader ([plainCookie, repeatedCookie 31].map Cookie.text)
    header.length = 46 ∧ ⟨15, 32⟩ ∈ (getCookieSession (Memory.ofList header 0) header.length).1 ∧
      ¬ (Access.mk 15 32).Within header.length := by
  refine ⟨by decide, by decide, ?_⟩
  simp only [Access.Within]
  decide

/-- The id that is cut out is the one of the scan over the bytes of the header and
the byte behind it. -/
theorem getCookieSession_id (memory : Memory UInt8) (len : Nat) :
    (getCookieSession memory len).2 = cookieSessionId (memory.window 0 len) (memory len) := by
  rw [getCookieSession, cookieSessionId, Memory.window_length]
  split
  · rfl
  · have scanned : (cookieLoop memory len len 0).2 = _ := cookieLoop_scan (Nat.le_add_left len 0)
    simp only [scanned]
    rfl

end Webapp.Session

import Webapp.MsgPack.Nested

namespace Webapp.MsgPack

open Webapp.Data

/-! What `msgpack_unpack_next` accepts.  The object is one that could be packed, and
its bytes are neither the beginning of another object nor behind the end of one.
-/

/-- What a step does with the stack: it fails, finishes or goes on. -/
def advance (stack : List Frame) : Content → Option (Object ⊕ List Frame)
  | .value object => some (push stack object)
  | .array count =>
      if embedStackSize ≤ stack.length then none
      else if count = 0 then some (push stack (.array []))
      else some (.inr (.arrayItem count [] :: stack))
  | .map count =>
      if embedStackSize ≤ stack.length then none
      else if count = 0 then some (push stack (.map []))
      else some (.inr (.mapKey count [] :: stack))

theorem proceed_eq (stack : List Frame) (content : Content) (offset : Nat) (bytes : List UInt8) :
    proceed stack content offset bytes =
      match advance stack content with
      | none => .failed
      | some (.inl object) => .finished object offset
      | some (.inr stack) => executeFrom stack offset bytes := by
  have settled (object : Object) : settle stack object offset bytes =
      match some (push stack object) with
      | none => .failed
      | some (.inl object) => .finished object offset
      | some (.inr stack) => executeFrom stack offset bytes := by
    rw [settle]
    cases push stack object <;> rfl
  cases content with
  | value object => exact settled object
  | array count =>
      rw [proceed, startContainer, advance]
      split
      · rfl
      · split
        · exact settled (.array [])
        · rfl
  | map count =>
      rw [proceed, startContainer, advance]
      split
      · rfl
      · split
        · exact settled (.map [])
        · rfl

/-- The runs of `template_execute` that finish, with the bytes they take. -/
inductive Finishes : List Frame → List UInt8 → Object → Nat → Prop
  | last {stack : List Frame} {header : UInt8} {rest : List UInt8} {content : Content} {size : Nat} {object : Object}
      (reads : Reads (readToken header) rest content size) (done : advance stack content = some (.inl object)) :
      Finishes stack (header :: rest) object (1 + size)
  | next {stack opened : List Frame} {header : UInt8} {rest : List UInt8} {content : Content} {size more : Nat}
      {object : Object} (reads : Reads (readToken header) rest content size)
      (goesOn : advance stack content = some (.inr opened)) (later : Finishes opened (rest.drop size) object more) :
      Finishes stack (header :: rest) object (1 + size + more)

theorem executeFrom_finishes {stack : List Frame} {offset ending : Nat} {bytes : List UInt8} {object : Object}
    (done : executeFrom stack offset bytes = .finished object ending) :
    ∃ size, ending = offset + size ∧ Finishes stack bytes object size := by
  induction whole : bytes.length using Nat.strong_induction_on generalizing stack offset bytes with
  | _ length ih =>
      cases bytes with
      | nil => cases done
      | cons header rest =>
          rcases readToken_reads header rest with out | failed | ⟨content, size, reads⟩
          · rw [executeFrom_out out] at done
            cases done
          · rw [executeFrom_failed failed] at done
            cases done
          · rw [executeFrom_token reads.here, proceed_eq] at done
            split at done
            · cases done
            · rename_i finished
              cases done
              exact ⟨1 + size, rfl, .last reads finished⟩
            · rename_i goesOn
              have shorter : (rest.drop size).length < length := by
                rw [List.length_cons] at whole
                rw [List.length_drop]
                omega
              obtain ⟨more, ends, later⟩ := ih _ shorter done rfl
              exact ⟨1 + size + more, by rw [ends, Nat.add_assoc], .next reads goesOn later⟩

theorem Finishes.within {stack : List Frame} {bytes : List UInt8} {object : Object} {size : Nat}
    (finishes : Finishes stack bytes object size) : size ≤ bytes.length := by
  induction finishes with
  | last reads _ =>
      have within := reads.within
      rw [List.length_cons]
      omega
  | next reads _ _ ih =>
      have within := reads.within
      rw [List.length_drop] at ih
      rw [List.length_cons]
      omega

/-- Only the bytes of the object matter. -/
theorem Finishes.again {stack : List Frame} {bytes : List UInt8} {object : Object} {size : Nat}
    (finishes : Finishes stack bytes object size) (offset : Nat) (more : List UInt8) :
    executeFrom stack offset (bytes.take size ++ more) = .finished object (offset + size) := by
  induction finishes generalizing offset with
  | last reads done =>
      rw [Nat.add_comm 1, List.take_succ_cons, List.cons_append, executeFrom_token (reads.again more), proceed_eq, done,
        Nat.add_comm 1]
  | @next stack opened header rest content size further object reads goesOn later ih =>
      have length : (rest.take size).length = size := List.length_take_of_le reads.within
      have split : (header :: rest).take (1 + size + further) =
          header :: (rest.take size ++ (rest.drop size).take further) := by
        rw [Nat.add_assoc, Nat.add_comm 1, List.take_succ_cons, List.take_add]
      rw [split, List.cons_append, List.append_assoc, executeFrom_token (reads.again _), proceed_eq, goesOn,
        List.drop_left' length]
      dsimp only
      rw [ih, Nat.add_assoc]

/-- A part of them leaves the unpacker waiting. -/
theorem Finishes.cut {stack : List Frame} {bytes : List UInt8} {object : Object} {size : Nat}
    (finishes : Finishes stack bytes object size) (offset : Nat) {fewer : Nat} (less : fewer < size) :
    executeFrom stack offset (bytes.take fewer) = .out := by
  induction finishes generalizing offset fewer with
  | last reads done =>
      cases fewer with
      | zero => rfl
      | succ fewer =>
          rw [List.take_succ_cons]
          exact executeFrom_out (reads.cut fewer (by omega))
  | @next stack opened header rest content size further object reads goesOn later ih =>
      cases fewer with
      | zero => rfl
      | succ fewer =>
          rw [List.take_succ_cons]
          by_cases inside : fewer < size
          · exact executeFrom_out (reads.cut fewer inside)
          · obtain ⟨beyond, rfl⟩ := Nat.exists_eq_add_of_le (Nat.le_of_not_lt inside)
            have length : (rest.take size).length = size := List.length_take_of_le reads.within
            rw [List.take_add, executeFrom_token (reads.again _), proceed_eq, goesOn, List.drop_left' length]
            exact ih _ (by omega)

/-- The objects in a frame fit below the containers that are open. -/
def Frame.Fits (level : Nat) : Frame → Prop
  | .arrayItem count items => 0 < count ∧ items.length + count < 2 ^ 32 ∧
      ∀ object ∈ items, object.Packable ∧ level + object.depth ≤ embedStackSize
  | .mapKey count items => 0 < count ∧ items.length + count < 2 ^ 32 ∧
      ∀ pair ∈ items, (pair.1.Packable ∧ level + pair.1.depth ≤ embedStackSize) ∧
        pair.2.Packable ∧ level + pair.2.depth ≤ embedStackSize
  | .mapValue count items key => 0 < count ∧ items.length + count < 2 ^ 32 ∧
      (∀ pair ∈ items, (pair.1.Packable ∧ level + pair.1.depth ≤ embedStackSize) ∧
        pair.2.Packable ∧ level + pair.2.depth ≤ embedStackSize) ∧
      key.Packable ∧ level + key.depth ≤ embedStackSize

def StackFits : List Frame → Prop
  | [] => True
  | frame :: stack => frame.Fits (stack.length + 1) ∧ stack.length + 1 ≤ embedStackSize ∧ StackFits stack

/-- What the finished object or the new stack has to satisfy. -/
def Outcome (outcome : Object ⊕ List Frame) : Prop :=
  match outcome with
  | .inl object => object.Packable ∧ object.depth ≤ embedStackSize
  | .inr stack => StackFits stack

theorem push_fits {stack : List Frame} {object : Object} (fits : StackFits stack) (packable : object.Packable)
    (room : stack.length + object.depth ≤ embedStackSize) : Outcome (push stack object) := by
  induction stack generalizing object with
  | nil => exact ⟨packable, by simpa using room⟩
  | cons frame stack ih =>
      obtain ⟨frameFits, below, fits⟩ := fits
      rw [List.length_cons] at room
      cases frame with
      | arrayItem count items =>
          obtain ⟨positive, bounded, all⟩ := frameFits
          have each : ∀ inside ∈ items ++ [object],
              inside.Packable ∧ stack.length + 1 + inside.depth ≤ embedStackSize := by
            intro inside member
            rcases List.mem_append.mp member with old | new
            · exact all inside old
            · rw [List.mem_singleton.mp new]
              exact ⟨packable, room⟩
          rw [push]
          split
          · apply ih fits
            · refine ⟨?_, Object.packableAll_iff.mpr fun inside member => (each inside member).1⟩
              rw [List.length_append, List.length_singleton]
              omega
            · have most : Object.depths (items ++ [object]) ≤ embedStackSize - (stack.length + 1) := by
                rw [Object.depths_le_iff]
                intro inside member
                have bound := (each inside member).2
                omega
              rw [Object.depth]
              omega
          · refine ⟨⟨by omega, ?_, each⟩, below, fits⟩
            rw [List.length_append, List.length_singleton]
            omega
      | mapKey count items =>
          obtain ⟨positive, bounded, all⟩ := frameFits
          exact ⟨⟨positive, bounded, all, packable, room⟩, below, fits⟩
      | mapValue count items key =>
          obtain ⟨positive, bounded, all, packableKey, roomKey⟩ := frameFits
          have each : ∀ pair ∈ items ++ [(key, object)],
              (pair.1.Packable ∧ stack.length + 1 + pair.1.depth ≤ embedStackSize) ∧
                pair.2.Packable ∧ stack.length + 1 + pair.2.depth ≤ embedStackSize := by
            intro pair member
            rcases List.mem_append.mp member with old | new
            · exact all pair old
            · rw [List.mem_singleton.mp new]
              exact ⟨⟨packableKey, roomKey⟩, packable, room⟩
          rw [push]
          split
          · apply ih fits
            · refine ⟨?_, Object.packablePairs_iff.mpr fun pair member => ⟨(each pair member).1.1, (each pair member).2.1⟩⟩
              rw [List.length_append, List.length_singleton]
              omega
            · have most : Object.depthPairs (items ++ [(key, object)]) ≤ embedStackSize - (stack.length + 1) := by
                rw [Object.depthPairs_le_iff]
                intro pair member
                have bound := each pair member
                omega
              rw [Object.depth]
              omega
          · refine ⟨⟨by omega, ?_, each⟩, below, fits⟩
            rw [List.length_append, List.length_singleton]
            omega

theorem StackFits.length_le {stack : List Frame} (fits : StackFits stack) : stack.length ≤ embedStackSize := by
  cases stack with
  | nil => exact Nat.zero_le _
  | cons frame stack => exact fits.2.1

theorem advance_fits {stack : List Frame} {content : Content} {outcome : Object ⊕ List Frame} (fits : StackFits stack)
    (contentFits : content.Fits) (advanced : advance stack content = some outcome) : Outcome outcome := by
  have room := fits.length_le
  cases content with
  | value object =>
      cases advanced
      obtain ⟨packable, plain⟩ := contentFits
      exact push_fits fits packable (by rw [Object.depth_plain plain]; omega)
  | array count =>
      rw [advance] at advanced
      split at advanced
      · cases advanced
      · split at advanced
        · cases advanced
          exact push_fits fits ⟨by simp, trivial⟩ (by simp only [Object.depth, Object.depths]; omega)
        · cases advanced
          exact ⟨⟨by omega, by simpa [Content.Fits] using contentFits, by simp⟩, by omega, fits⟩
  | map count =>
      rw [advance] at advanced
      split at advanced
      · cases advanced
      · split at advanced
        · cases advanced
          exact push_fits fits ⟨by simp, trivial⟩ (by simp only [Object.depth, Object.depthPairs]; omega)
        · cases advanced
          exact ⟨⟨by omega, by simpa [Content.Fits] using contentFits, by simp⟩, by omega, fits⟩

theorem Finishes.packable {stack : List Frame} {bytes : List UInt8} {object : Object} {size : Nat}
    (finishes : Finishes stack bytes object size) (fits : StackFits stack) :
    object.Packable ∧ object.depth ≤ embedStackSize := by
  induction finishes with
  | last reads done => exact advance_fits fits reads.fits done
  | next reads goesOn _ ih => exact ih (advance_fits fits reads.fits goesOn)

/-- An object that is accepted is one that can be packed, with no more containers in
one another than the stack takes; the bytes behind its own make no difference, none
of its beginnings is accepted or refused, and what packing makes of it is accepted
as the same object. -/
theorem unpackNext_accepts (bytes : List UInt8) (object : Object) (size : Nat)
    (done : unpackNext bytes = some (object, size)) :
    object.Packable ∧ object.depth ≤ 32 ∧ size ≤ bytes.length ∧
      (∀ rest, unpackNext (bytes.take size ++ rest) = some (object, size)) ∧
      (∀ fewer < size, execute fewer [] 0 (bytes.take fewer) = .out) ∧
      ∀ rest, unpackNext (packObject object ++ rest) = some (object, (packObject object).length) := by
  have finished : executeFrom [] 0 bytes = .finished object size := by
    rw [unpackNext_eq] at done
    split at done
    · rename_i finished
      cases done
      exact finished
    · cases done
  obtain ⟨_, same, finishes⟩ := executeFrom_finishes finished
  rw [Nat.zero_add] at same
  subst same
  obtain ⟨packable, shallow⟩ := finishes.packable trivial
  refine ⟨packable, shallow, finishes.within, ?_, ?_, ?_⟩
  · intro rest
    rw [unpackNext_eq, finishes.again, Nat.zero_add]
  · intro fewer less
    have length : (bytes.take fewer).length = fewer :=
      List.length_take_of_le (Nat.le_trans (Nat.le_of_lt less) finishes.within)
    have out := finishes.cut 0 less
    rwa [executeFrom, length] at out
  · intro rest
    obtain ⟨unpacks, _⟩ := packable_unpacks object packable
    rw [unpackNext_eq, unpacks [] 0 rest (by simpa using shallow), settle, push, Nat.zero_add]

/-- A float and a two-byte form of a small number inside an array, with a byte behind it. -/
theorem unpackNext_accepts_long_form :
    unpackNext [0x92, 0xca, 0x3f, 0xc0, 0, 0, 0xcc, 5, 0xc1] =
        some (.array [.double [0x3f, 0xf8, 0, 0, 0, 0, 0, 0], .positiveInteger 5], 8) ∧
      execute 4 [] 0 [0x92, 0xca, 0x3f, 0xc0] = .out ∧
      unpackNext [0x92, 0xcb, 0x3f, 0xf8, 0, 0, 0, 0, 0, 0, 5, 0xc1] =
        some (.array [.double [0x3f, 0xf8, 0, 0, 0, 0, 0, 0], .positiveInteger 5], 11) := by
  have accepts := unpackNext_accepts [0x92, 0xca, 0x3f, 0xc0, 0, 0, 0xcc, 5, 0xc1]
    (.array [.double [0x3f, 0xf8, 0, 0, 0, 0, 0, 0], .positiveInteger 5]) 8 rfl
  exact ⟨rfl, accepts.2.2.2.2.1 4 (by decide), accepts.2.2.2.2.2 [0xc1]⟩

end Webapp.MsgPack

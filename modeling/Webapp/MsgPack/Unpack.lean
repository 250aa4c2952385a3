import Webapp.Data.BigEndian
import Webapp.Data.Ieee

namespace Webapp.MsgPack

open Webapp.Data

/-- `msgpack_object`.  A double is the bytes of its IEEE format, most significant
first. -/
inductive Object where
  | nil
  | boolean (value : Bool)
  | positiveInteger (value : Nat)
  | negativeInteger (value : Int)
  | double (bytes : List UInt8)
  | raw (bytes : List UInt8)
  | array (items : List Object)
  | map (items : List (Object × Object))

/-- What a header byte and the bytes it announces amount to.  `out` is the
unpacker running out of input, `failed` a byte no object starts with; sizes
count every byte consumed, the header included. -/
inductive Token where
  | out
  | failed
  | value (object : Object) (size : Nat)
  | array (count size : Nat)
  | map (count size : Nat)

/-- `_fixed_trail_again`: use the `count` bytes behind the header. -/
def fixedTrail (rest : List UInt8) (count : Nat) (use : List UInt8 → Token) : Token :=
  if rest.length < count then .out else use (rest.take count)

/-- `ACS_RAW_VALUE`: a body of `length` bytes behind a header and `skipped`
length bytes. -/
def rawValue (rest : List UInt8) (skipped length : Nat) : Token :=
  if (rest.drop skipped).length < length then .out
  else .value (.raw ((rest.drop skipped).take length)) (1 + skipped + length)

/-- `template_callback_int8` to `_int64` on the two's complement bytes. -/
def signedInteger (bytes : List UInt8) : Object :=
  let bits := loadBE bytes
  if 2 * bits < 256 ^ bytes.length then .positiveInteger bits
  else .negativeInteger (bits - 256 ^ bytes.length)

/-- `template_callback_float`: `o->via.dec = d`. -/
def widenFloat (bytes : List UInt8) : List UInt8 := storeBE 8 (widenBits (loadBE bytes))

/-- The headers `0xc0` to `0xdf`, whose low bits select the state that reads
the bytes behind them. -/
def readVariable (byte : Nat) (rest : List UInt8) : Token :=
  if byte = 0xc0 then .value .nil 1
  else if byte = 0xc2 then .value (.boolean false) 1
  else if byte = 0xc3 then .value (.boolean true) 1
  else if 0xc4 ≤ byte ∧ byte ≤ 0xc6 then
    let count := 1 <<< (byte &&& 0x03)
    fixedTrail rest count fun trail => rawValue rest count (loadBE trail)
  else if 0xca ≤ byte ∧ byte ≤ 0xcb then
    let count := 1 <<< (byte &&& 0x03)
    fixedTrail rest count fun trail => .value (.double (if byte = 0xca then widenFloat trail else trail)) (1 + count)
  else if 0xcc ≤ byte ∧ byte ≤ 0xcf then
    let count := 1 <<< (byte &&& 0x03)
    fixedTrail rest count fun trail => .value (.positiveInteger (loadBE trail)) (1 + count)
  else if 0xd0 ≤ byte ∧ byte ≤ 0xd3 then
    let count := 1 <<< (byte &&& 0x03)
    fixedTrail rest count fun trail => .value (signedInteger trail) (1 + count)
  else if 0xd9 ≤ byte ∧ byte ≤ 0xdb then
    let count := 1 <<< ((byte &&& 0x03) - 1)
    fixedTrail rest count fun trail => rawValue rest count (loadBE trail)
  else if 0xdc ≤ byte ∧ byte ≤ 0xdd then
    let count := 2 <<< (byte &&& 0x01)
    fixedTrail rest count fun trail => .array (loadBE trail) (1 + count)
  else if 0xde ≤ byte ∧ byte ≤ 0xdf then
    let count := 2 <<< (byte &&& 0x01)
    fixedTrail rest count fun trail => .map (loadBE trail) (1 + count)
  else .failed

/-- The double of a finite float is the same number. -/
theorem widenFloat_value {bytes : List UInt8} (width : bytes.length = 4) (finite : loadBE bytes / 2 ^ 23 % 2 ^ 8 ≠ 255) :
    let wide := loadBE (widenFloat bytes)
    wide / 2 ^ 63 = loadBE bytes / 2 ^ 31 ∧
      magnitude 52 (wide / 2 ^ 52 % 2 ^ 11) (wide % 2 ^ 52) =
        magnitude 23 (loadBE bytes / 2 ^ 23 % 2 ^ 8) (loadBE bytes % 2 ^ 23) * 2 ^ 925 := by
  have word := loadBE_lt bytes
  rw [width] at word
  obtain ⟨fits, kept⟩ := widenBits_value word finite
  rw [widenFloat, loadBE_storeBE fits]
  exact kept

/-- 1.5, the least subnormal number and the largest one. -/
example : widenFloat [0x3f, 0xc0, 0, 0] = [0x3f, 0xf8, 0, 0, 0, 0, 0, 0] ∧
    widenFloat [0x80, 0, 0, 1] = [0xb6, 0xa0, 0, 0, 0, 0, 0, 0] ∧
    widenFloat [0, 0x7f, 0xff, 0xff] = [0x38, 0x0f, 0xff, 0xff, 0xc0, 0, 0, 0] := by
  decide

/-- The `CS_HEADER` switch of `template_execute` and the state it leads to. -/
def readToken (header : UInt8) (rest : List UInt8) : Token :=
  let byte := header.toNat
  if byte ≤ 0x7f then .value (.positiveInteger byte) 1
  else if 0xe0 ≤ byte then .value (.negativeInteger (byte - 256)) 1
  else if 0xc0 ≤ byte then readVariable byte rest
  else if 0xa0 ≤ byte then rawValue rest 0 (byte &&& 0x1f)
  else if 0x90 ≤ byte then .array (byte &&& 0x0f) 1
  else .map (byte &&& 0x0f) 1

inductive Frame where
  | arrayItem (count : Nat) (items : List Object)
  | mapKey (count : Nat) (items : List (Object × Object))
  | mapValue (count : Nat) (items : List (Object × Object)) (key : Object)

/-- `_push`: hand a finished object to the innermost open container, closing
every container that it completes.  `.inl` is `goto _finish`. -/
def push : List Frame → Object → Object ⊕ List Frame
  | [], object => .inl object
  | .arrayItem count items :: stack, object =>
      if count - 1 = 0 then push stack (.array (items ++ [object]))
      else .inr (.arrayItem (count - 1) (items ++ [object]) :: stack)
  | .mapKey count items :: stack, object => .inr (.mapValue count items object :: stack)
  | .mapValue count items key :: stack, object =>
      if count - 1 = 0 then push stack (.map (items ++ [(key, object)]))
      else .inr (.mapKey (count - 1) (items ++ [(key, object)]) :: stack)

/-- The return values 0, -1 and 1 of `template_execute`; a finished run
reports its object and `*off`. -/
inductive Execution where
  | out
  | failed
  | finished (object : Object) (offset : Nat)

def embedStackSize : Nat := 32

/-- `template_execute` from the header at `offset`.  Every round consumes a
byte, so the number of bytes left is enough fuel. -/
def execute : Nat → List Frame → Nat → List UInt8 → Execution
  | 0, _, _, _ => .out
  | _, _, _, [] => .out
  | fuel + 1, stack, offset, header :: rest =>
      let settle (object : Object) (size : Nat) : Execution :=
        match push stack object with
        | .inl object => .finished object (offset + size)
        | .inr stack => execute fuel stack (offset + size) ((header :: rest).drop size)
      match readToken header rest with
      | .out => .out
      | .failed => .failed
      | .value object size => settle object size
      | .array count size =>
          if embedStackSize ≤ stack.length then .failed
          else if count = 0 then settle (.array []) size
          else execute fuel (.arrayItem count [] :: stack) (offset + size) ((header :: rest).drop size)
      | .map count size =>
          if embedStackSize ≤ stack.length then .failed
          else if count = 0 then settle (.map []) size
          else execute fuel (.mapKey count [] :: stack) (offset + size) ((header :: rest).drop size)

/-- `msgpack_unpack_next` with `*off = 0`: the first object of the bytes and
its encoded size.  Running out of bytes and failing are both `false`. -/
def unpackNext (bytes : List UInt8) : Option (Object × Nat) :=
  match execute bytes.length [] 0 bytes with
  | .finished object offset => some (object, offset)
  | _ => none

theorem unpackNext_of_value {header : UInt8} {rest : List UInt8} {object : Object} {size : Nat}
    (token : readToken header rest = .value object size) :
    unpackNext (header :: rest) = some (object, size) := by
  simp [unpackNext, execute, token, push]

theorem unpackNext_of_out {header : UInt8} {rest : List UInt8} (token : readToken header rest = .out) :
    unpackNext (header :: rest) = none := by
  simp [unpackNext, execute, token]

def Object.isContainer : Object → Bool
  | .array _ | .map _ => true
  | _ => false

private theorem push_finish_container {stack : List Frame} {object finished : Object}
    (inside : stack ≠ [] ∨ object.isContainer) (done : push stack object = .inl finished) :
    finished.isContainer := by
  induction stack generalizing object with
  | nil =>
      obtain rfl : object = finished := by simpa [push] using done
      simpa using inside
  | cons frame stack ih =>
      cases frame with
      | arrayItem count items =>
          simp only [push] at done
          split at done
          · exact ih (Or.inr rfl) done
          · contradiction
      | mapKey count items => simp [push] at done
      | mapValue count items key =>
          simp only [push] at done
          split at done
          · exact ih (Or.inr rfl) done
          · contradiction

private theorem push_opened_stack {stack opened : List Frame} {object : Object}
    (more : push stack object = .inr opened) : opened ≠ [] := by
  induction stack generalizing object with
  | nil => simp [push] at more
  | cons frame stack ih =>
      cases frame with
      | arrayItem count items =>
          simp only [push] at more
          split at more
          · exact ih more
          · cases more; simp
      | mapKey count items => cases more; simp
      | mapValue count items key =>
          simp only [push] at more
          split at more
          · exact ih more
          · cases more; simp

private theorem execute_opened_container {fuel : Nat} {stack : List Frame} {offset size : Nat}
    {bytes : List UInt8} {object : Object} (inside : stack ≠ [])
    (done : execute fuel stack offset bytes = .finished object size) : object.isContainer := by
  induction fuel generalizing stack offset bytes with
  | zero => simp [execute] at done
  | succ fuel ih =>
      cases bytes with
      | nil => simp [execute] at done
      | cons header rest =>
          have settled {result : Object} {width : Nat}
              (finish : (match push stack result with
                | .inl object => Execution.finished object (offset + width)
                | .inr stack => execute fuel stack (offset + width) ((header :: rest).drop width)) =
                  .finished object size) : object.isContainer := by
            split at finish
            · rename_i closed
              cases finish
              exact push_finish_container (Or.inl inside) closed
            · rename_i more
              exact ih (push_opened_stack more) finish
          simp only [execute] at done
          split at done
          · contradiction
          · contradiction
          · exact settled done
          · split at done
            · contradiction
            · split at done
              · exact settled done
              · exact ih (by simp) done
          · split at done
            · contradiction
            · split at done
              · exact settled done
              · exact ih (by simp) done

theorem unpackNext_plain {bytes : List UInt8} {object : Object} {size : Nat}
    (plain : object.isContainer = false) (done : unpackNext bytes = some (object, size)) :
    ∃ header rest, bytes = header :: rest ∧ readToken header rest = .value object size := by
  cases bytes with
  | nil => simp [unpackNext, execute] at done
  | cons header rest =>
      refine ⟨header, rest, rfl, ?_⟩
      have run : execute (rest.length + 1) [] 0 (header :: rest) = .finished object size := by
        unfold unpackNext at done
        split at done
        · rename_i finished
          cases done
          exact finished
        · contradiction
      have notOpened {stack : List Frame} {offset : Nat} {left : List UInt8} (inside : stack ≠ [])
          (finish : execute rest.length stack offset left = .finished object size) : False := by
        simp [execute_opened_container inside finish] at plain
      simp only [execute, push] at run
      split at run
      · contradiction
      · contradiction
      · rename_i token
        simp only [Nat.zero_add] at run
        cases run
        exact token
      · split at run
        · contradiction
        · split at run
          · cases run; simp [Object.isContainer] at plain
          · exact (notOpened (by simp) run).elim
      · split at run
        · contradiction
        · split at run
          · cases run; simp [Object.isContainer] at plain
          · exact (notOpened (by simp) run).elim

private theorem one_shiftLeft_le (byte : Nat) : 1 <<< (byte &&& 0x03) ≤ 8 := by
  have bound : byte &&& 0x03 ≤ 3 := Nat.and_le_right
  rw [Nat.one_shiftLeft]
  exact Nat.pow_le_pow_right (by decide) bound

private theorem fixedTrail_value {rest : List UInt8} {count size : Nat} {object : Object}
    {use : List UInt8 → Token} (token : fixedTrail rest count use = .value object size) :
    count ≤ rest.length ∧ use (rest.take count) = .value object size := by
  unfold fixedTrail at token
  split at token
  · contradiction
  · exact ⟨by omega, token⟩

private theorem rawValue_object {rest : List UInt8} {skipped length size : Nat} {object : Object}
    (token : rawValue rest skipped length = .value object size) : ∃ bytes, object = .raw bytes := by
  unfold rawValue at token
  split at token
  · contradiction
  · cases token
    exact ⟨_, rfl⟩

/-- A header byte whose object has a fixed size: the object is a function of the
bytes behind it. -/
def Fixed (token : List UInt8 → Token) (count : Nat) (object : List UInt8 → Object) : Prop :=
  ∀ rest, token rest = fixedTrail rest count fun trail => .value (object trail) (1 + count)

private theorem readVariable_positiveInteger {byte value size : Nat} {rest : List UInt8}
    (token : readVariable byte rest = .value (.positiveInteger value) size) :
    ∃ count object, count ≤ 8 ∧ Fixed (readVariable byte) count object := by
  have raw {count : Nat}
      (value : fixedTrail rest count (fun trail => rawValue rest count (loadBE trail)) =
        .value (.positiveInteger value) size) : False := by
    obtain ⟨bytes, same⟩ := rawValue_object (fixedTrail_value value).2
    contradiction
  -- The branches follow the inner switch of the source.
  rw [readVariable] at token
  rcases ite_eq_iff.mp token with ⟨_, token⟩ | ⟨nil, token⟩
  · injection token
    contradiction
  rcases ite_eq_iff.mp token with ⟨_, token⟩ | ⟨no, token⟩
  · injection token
    contradiction
  rcases ite_eq_iff.mp token with ⟨_, token⟩ | ⟨yes, token⟩
  · injection token
    contradiction
  rcases ite_eq_iff.mp token with ⟨_, token⟩ | ⟨binary, token⟩
  · exact (raw token).elim
  rcases ite_eq_iff.mp token with ⟨_, token⟩ | ⟨float, token⟩
  · injection (fixedTrail_value token).2
    contradiction
  rcases ite_eq_iff.mp token with ⟨unsigned, _⟩ | ⟨unsigned, token⟩
  · refine ⟨1 <<< (byte &&& 0x03), fun trail => .positiveInteger (loadBE trail), one_shiftLeft_le byte, fun rest => ?_⟩
    rw [readVariable, if_neg nil, if_neg no, if_neg yes, if_neg binary, if_neg float, if_pos unsigned]
  rcases ite_eq_iff.mp token with ⟨signed, _⟩ | ⟨_, token⟩
  · refine ⟨1 <<< (byte &&& 0x03), signedInteger, one_shiftLeft_le byte, fun rest => ?_⟩
    rw [readVariable, if_neg nil, if_neg no, if_neg yes, if_neg binary, if_neg float, if_neg unsigned, if_pos signed]
  rcases ite_eq_iff.mp token with ⟨_, token⟩ | ⟨_, token⟩
  · exact (raw token).elim
  rcases ite_eq_iff.mp token with ⟨_, token⟩ | ⟨_, token⟩
  · have impossible := (fixedTrail_value token).2
    contradiction
  rcases ite_eq_iff.mp token with ⟨_, token⟩ | ⟨_, token⟩
  · have impossible := (fixedTrail_value token).2
    contradiction
  contradiction

private theorem readToken_positiveInteger {header : UInt8} {value size : Nat} {rest : List UInt8}
    (token : readToken header rest = .value (.positiveInteger value) size) :
    ∃ count object, count ≤ 8 ∧ Fixed (readToken header) count object := by
  simp only [readToken] at token
  split at token
  · rename_i small
    refine ⟨0, fun _ => .positiveInteger header.toNat, by decide, fun rest => ?_⟩
    rw [readToken, if_pos small, fixedTrail, if_neg (Nat.not_lt_zero _)]
  rename_i fixnum
  split at token
  · injection token
    contradiction
  rename_i negative
  split at token
  · rename_i wide
    obtain ⟨count, object, narrow, fixed⟩ := readVariable_positiveInteger token
    refine ⟨count, object, narrow, fun rest => ?_⟩
    rw [readToken, if_neg fixnum, if_neg negative, if_pos wide]
    exact fixed rest
  split at token
  · obtain ⟨bytes, same⟩ := rawValue_object token
    contradiction
  split at token <;> contradiction

/-- A positive integer comes from a header byte that announces as many bytes as
the integer takes, whatever is behind them. -/
theorem unpackNext_integer {bytes : List UInt8} {value size : Nat}
    (done : unpackNext bytes = some (.positiveInteger value, size)) :
    ∃ header rest count object, bytes = header :: rest ∧ size = 1 + count ∧ count ≤ 8 ∧ count ≤ rest.length ∧
      object (rest.take count) = .positiveInteger value ∧ Fixed (readToken header) count object := by
  obtain ⟨header, rest, rfl, token⟩ := unpackNext_plain rfl done
  obtain ⟨count, object, narrow, fixed⟩ := readToken_positiveInteger token
  obtain ⟨within, exactly⟩ := fixedTrail_value ((fixed rest).symm.trans token)
  injection exactly with same width
  exact ⟨header, rest, count, object, rfl, width.symm, narrow, within, same, fixed⟩

theorem unpackNext_positiveInteger {bytes : List UInt8} {value size : Nat}
    (done : unpackNext bytes = some (.positiveInteger value, size)) :
    1 ≤ size ∧ size ≤ 9 ∧ size ≤ bytes.length := by
  obtain ⟨header, rest, count, object, rfl, rfl, narrow, within, _⟩ := unpackNext_integer done
  rw [List.length_cons]
  omega

theorem unpackNext_take_integer {bytes : List UInt8} {value : Nat}
    (done : unpackNext bytes = some (.positiveInteger value, bytes.length)) (further : List UInt8) (count : Nat) :
    unpackNext ((bytes ++ further).take count) =
      if count < bytes.length then none else some (.positiveInteger value, bytes.length) := by
  obtain ⟨header, rest, width, object, rfl, size, _, within, same, fixed⟩ := unpackNext_integer done
  have whole : rest.length = width := by
    rw [List.length_cons] at size
    omega
  rw [← whole, List.take_length] at same
  cases count with
  | zero => rfl
  | succ count =>
      simp only [List.cons_append, List.take_succ_cons, List.length_cons, Nat.add_lt_add_iff_right]
      split
      · rename_i cut
        apply unpackNext_of_out
        rw [fixed, fixedTrail, if_pos (by rw [List.length_take]; omega)]
      · rename_i reached
        apply unpackNext_of_value
        rw [fixed, fixedTrail, if_neg (by rw [List.length_take, List.length_append]; omega), List.take_take,
          List.take_append_of_le_length (by omega), List.take_of_length_le (by omega), same, ← size, List.length_cons]

end Webapp.MsgPack

import Webapp.MsgPack.Objects

namespace Webapp.MsgPack

open Webapp.Data

/-! The objects inside an object, and `template_execute` as a step for each header
byte: what the byte announces is read, and then handed to the innermost of the
containers that are open.
-/

namespace Object

mutual

/-- How many containers are open at once in an encoding of the object. -/
def depth : Object → Nat
  | .array items => depths items + 1
  | .map items => depthPairs items + 1
  | _ => 0

def depths : List Object → Nat
  | [] => 0
  | object :: objects => max object.depth (depths objects)

def depthPairs : List (Object × Object) → Nat
  | [] => 0
  | pair :: pairs => max (depthPair pair) (depthPairs pairs)

def depthPair : Object × Object → Nat
  | (key, value) => max key.depth value.depth

end

mutual

/-- The object is one that `msgpack_object` can hold. -/
def Packable : Object → Prop
  | .nil | .boolean _ => True
  | .positiveInteger value => value < 2 ^ 64
  | .negativeInteger value => -2 ^ 63 ≤ value ∧ value < 0
  | .double bytes => bytes.length = 8
  | .raw bytes => bytes.length < 2 ^ 32
  | .array items => items.length < 2 ^ 32 ∧ PackableAll items
  | .map items => items.length < 2 ^ 32 ∧ PackablePairs items

def PackableAll : List Object → Prop
  | [] => True
  | object :: objects => object.Packable ∧ PackableAll objects

def PackablePairs : List (Object × Object) → Prop
  | [] => True
  | pair :: pairs => PackablePair pair ∧ PackablePairs pairs

def PackablePair : Object × Object → Prop
  | (key, value) => key.Packable ∧ value.Packable

end

/-- Induction over an object and the objects inside it. -/
theorem nested_induction {P : Object → Prop} (plain : ∀ object : Object, object.isContainer = false → P object)
    (array : ∀ items, (∀ object ∈ items, P object) → P (.array items))
    (map : ∀ items, (∀ pair ∈ items, P pair.1 ∧ P pair.2) → P (.map items)) (object : Object) : P object := by
  refine @Object.rec P (fun items => ∀ object ∈ items, P object) (fun items => ∀ pair ∈ items, P pair.1 ∧ P pair.2)
    (fun pair => P pair.1 ∧ P pair.2) (plain _ rfl) (fun _ => plain _ rfl) (fun _ => plain _ rfl)
    (fun _ => plain _ rfl) (fun _ => plain _ rfl) (fun _ => plain _ rfl) array map ?_ ?_ ?_ ?_ ?_ object
  · simp
  · intro first rest ofFirst ofRest
    exact List.forall_mem_cons.mpr ⟨ofFirst, ofRest⟩
  · simp
  · intro first rest ofFirst ofRest
    exact List.forall_mem_cons.mpr ⟨ofFirst, ofRest⟩
  · intro key value ofKey ofValue
    exact ⟨ofKey, ofValue⟩

theorem packableAll_iff {items : List Object} :
    PackableAll items ↔ ∀ object ∈ items, object.Packable := by
  induction items with
  | nil => simp [PackableAll]
  | cons first rest ih => rw [PackableAll, ih, List.forall_mem_cons]

theorem packablePairs_iff {items : List (Object × Object)} :
    PackablePairs items ↔ ∀ pair ∈ items, pair.1.Packable ∧ pair.2.Packable := by
  induction items with
  | nil => simp [PackablePairs]
  | cons first rest ih => rw [PackablePairs, ih, List.forall_mem_cons, PackablePair]

theorem depths_le_iff {items : List Object} {most : Nat} :
    depths items ≤ most ↔ ∀ object ∈ items, object.depth ≤ most := by
  induction items with
  | nil => simp [depths]
  | cons first rest ih => rw [depths, Nat.max_le, ih, List.forall_mem_cons]

theorem depthPairs_le_iff {items : List (Object × Object)} {most : Nat} :
    depthPairs items ≤ most ↔ ∀ pair ∈ items, pair.1.depth ≤ most ∧ pair.2.depth ≤ most := by
  induction items with
  | nil => simp [depthPairs]
  | cons first rest ih => rw [depthPairs, Nat.max_le, ih, List.forall_mem_cons, depthPair, Nat.max_le]

theorem depth_plain {object : Object} (plain : object.isContainer = false) : object.depth = 0 := by
  cases object with
  | array items => contradiction
  | map items => contradiction
  | _ => rfl

end Object

/-- What a header byte announces, apart from the size. -/
inductive Content where
  | value (object : Object)
  | array (count : Nat)
  | map (count : Nat)

def Content.token (content : Content) (size : Nat) : Token :=
  match content with
  | .value object => .value object size
  | .array count => .array count size
  | .map count => .map count size

def Content.Fits : Content → Prop
  | .value object => object.Packable ∧ object.isContainer = false
  | .array count | .map count => count < 2 ^ 32

/-- The three ways in which a header byte is followed by the bytes it announces. -/
inductive Shape where
  | failed
  | fixed (count : Nat) (use : List UInt8 → Content)
  | raw (count : Nat) (length : List UInt8 → Nat)

namespace Shape

def read : Shape → List UInt8 → Token
  | .failed, _ => .failed
  | .fixed count use, rest => fixedTrail rest count fun trail => (use trail).token (1 + count)
  | .raw count length, rest => fixedTrail rest count fun trail => rawValue rest count (length trail)

def Fits : Shape → Prop
  | .failed => True
  | .fixed count use => ∀ trail, trail.length = count → (use trail).Fits
  | .raw count length => ∀ trail, trail.length = count → length trail < 2 ^ 32

end Shape

theorem signedInteger_fits {bytes : List UInt8} (narrow : bytes.length ≤ 8) :
    (Content.value (signedInteger bytes)).Fits := by
  have below := loadBE_lt bytes
  have cast : ((256 ^ bytes.length : Nat) : Int) = 256 ^ bytes.length := Int.natCast_pow 256 _
  have bound : 256 ^ bytes.length ≤ 2 ^ 64 := by
    calc 256 ^ bytes.length ≤ 256 ^ 8 := Nat.pow_le_pow_right (by decide) narrow
      _ = 2 ^ 64 := by decide
  rw [signedInteger]
  split
  · refine ⟨?_, rfl⟩
    simp only [Object.Packable]
    omega
  · refine ⟨?_, rfl⟩
    simp only [Object.Packable]
    omega

theorem loadBE_fits {bytes : List UInt8} {width bound : Nat} (narrow : bytes.length ≤ width) (limit : 256 ^ width ≤ bound) :
    loadBE bytes < bound := by
  calc loadBE bytes < 256 ^ bytes.length := loadBE_lt bytes
    _ ≤ 256 ^ width := Nat.pow_le_pow_right (by decide) narrow
    _ ≤ bound := limit

theorem readVariable_shape (byte : Nat) :
    ∃ shape : Shape, shape.Fits ∧ ∀ rest, readVariable byte rest = shape.read rest := by
  -- The branches follow the inner switch of the source.
  by_cases nil : byte = 0xc0
  · exact ⟨.fixed 0 fun _ => .value .nil, fun _ _ => ⟨trivial, rfl⟩, fun rest => by rw [readVariable, if_pos nil]; rfl⟩
  by_cases no : byte = 0xc2
  · exact ⟨.fixed 0 fun _ => .value (.boolean false), fun _ _ => ⟨trivial, rfl⟩,
      fun rest => by rw [readVariable, if_neg nil, if_pos no]; rfl⟩
  by_cases yes : byte = 0xc3
  · exact ⟨.fixed 0 fun _ => .value (.boolean true), fun _ _ => ⟨trivial, rfl⟩,
      fun rest => by rw [readVariable, if_neg nil, if_neg no, if_pos yes]; rfl⟩
  by_cases binary : 0xc4 ≤ byte ∧ byte ≤ 0xc6
  · refine ⟨.raw (1 <<< (byte &&& 0x03)) loadBE, ?_,
      fun rest => by rw [readVariable, if_neg nil, if_neg no, if_neg yes, if_pos binary]; rfl⟩
    have narrow : 1 <<< (byte &&& 0x03) ≤ 4 := by
      obtain ⟨least, most⟩ := binary
      interval_cases byte <;> decide
    exact fun trail length => loadBE_fits (length ▸ narrow) (by decide)
  by_cases float : 0xca ≤ byte ∧ byte ≤ 0xcb
  · refine ⟨.fixed (1 <<< (byte &&& 0x03)) fun trail => .value (.double (if byte = 0xca then widenFloat trail else trail)),
      ?_, fun rest => by rw [readVariable, if_neg nil, if_neg no, if_neg yes, if_neg binary, if_pos float]; rfl⟩
    intro trail length
    refine ⟨?_, rfl⟩
    obtain ⟨least, most⟩ := float
    rw [Object.Packable]
    interval_cases byte
    · exact storeBE_length 8 _
    · exact length
  have byteWidth : 1 <<< (byte &&& 0x03) ≤ 8 := by
    rw [Nat.one_shiftLeft]
    exact Nat.pow_le_pow_right (by decide) Nat.and_le_right
  by_cases unsigned : 0xcc ≤ byte ∧ byte ≤ 0xcf
  · refine ⟨.fixed (1 <<< (byte &&& 0x03)) fun trail => .value (.positiveInteger (loadBE trail)), ?_,
      fun rest => by rw [readVariable, if_neg nil, if_neg no, if_neg yes, if_neg binary, if_neg float, if_pos unsigned]; rfl⟩
    exact fun trail length => ⟨loadBE_fits (length ▸ byteWidth) (by decide), rfl⟩
  by_cases signed : 0xd0 ≤ byte ∧ byte ≤ 0xd3
  · refine ⟨.fixed (1 <<< (byte &&& 0x03)) fun trail => .value (signedInteger trail), ?_, fun rest => by
      rw [readVariable, if_neg nil, if_neg no, if_neg yes, if_neg binary, if_neg float, if_neg unsigned, if_pos signed]
      rfl⟩
    exact fun trail length => signedInteger_fits (length ▸ byteWidth)
  by_cases raw : 0xd9 ≤ byte ∧ byte ≤ 0xdb
  · refine ⟨.raw (1 <<< ((byte &&& 0x03) - 1)) loadBE, ?_, fun rest => by
      rw [readVariable, if_neg nil, if_neg no, if_neg yes, if_neg binary, if_neg float, if_neg unsigned, if_neg signed,
        if_pos raw]
      rfl⟩
    have narrow : 1 <<< ((byte &&& 0x03) - 1) ≤ 4 := by
      obtain ⟨least, most⟩ := raw
      interval_cases byte <;> decide
    exact fun trail length => loadBE_fits (length ▸ narrow) (by decide)
  have countWidth : 2 <<< (byte &&& 0x01) ≤ 4 := by
    have bit : byte &&& 0x01 ≤ 1 := Nat.and_le_right
    interval_cases byte &&& 0x01 <;> decide
  by_cases array : 0xdc ≤ byte ∧ byte ≤ 0xdd
  · refine ⟨.fixed (2 <<< (byte &&& 0x01)) fun trail => .array (loadBE trail), ?_, fun rest => by
      rw [readVariable, if_neg nil, if_neg no, if_neg yes, if_neg binary, if_neg float, if_neg unsigned, if_neg signed,
        if_neg raw, if_pos array]
      rfl⟩
    exact fun trail length => loadBE_fits (length ▸ countWidth) (by decide)
  by_cases map : 0xde ≤ byte ∧ byte ≤ 0xdf
  · refine ⟨.fixed (2 <<< (byte &&& 0x01)) fun trail => .map (loadBE trail), ?_, fun rest => by
      rw [readVariable, if_neg nil, if_neg no, if_neg yes, if_neg binary, if_neg float, if_neg unsigned, if_neg signed,
        if_neg raw, if_neg array, if_pos map]
      rfl⟩
    exact fun trail length => loadBE_fits (length ▸ countWidth) (by decide)
  · refine ⟨.failed, trivial, fun rest => ?_⟩
    rw [readVariable, if_neg nil, if_neg no, if_neg yes, if_neg binary, if_neg float, if_neg unsigned, if_neg signed,
      if_neg raw, if_neg array, if_neg map]
    rfl

theorem readToken_shape (header : UInt8) :
    ∃ shape : Shape, shape.Fits ∧ ∀ rest, readToken header rest = shape.read rest := by
  have small := header.toNat_lt
  by_cases fixnum : header.toNat ≤ 0x7f
  · refine ⟨.fixed 0 fun _ => .value (.positiveInteger header.toNat), ?_, fun rest => by
      rw [readToken, if_pos fixnum]
      rfl⟩
    intro _ _
    refine ⟨?_, rfl⟩
    simp only [Object.Packable]
    omega
  by_cases negative : 0xe0 ≤ header.toNat
  · refine ⟨.fixed 0 fun _ => .value (.negativeInteger (header.toNat - 256)), ?_, fun rest => by
      rw [readToken, if_neg fixnum, if_pos negative]
      rfl⟩
    intro _ _
    refine ⟨?_, rfl⟩
    simp only [Object.Packable]
    omega
  by_cases wide : 0xc0 ≤ header.toNat
  · obtain ⟨shape, fits, same⟩ := readVariable_shape header.toNat
    refine ⟨shape, fits, fun rest => ?_⟩
    rw [readToken, if_neg fixnum, if_neg negative, if_pos wide, same]
  have low : ∀ mask, mask < 256 → header.toNat &&& mask < 2 ^ 32 := fun mask bound =>
    Nat.lt_of_le_of_lt Nat.and_le_right (by omega)
  by_cases raw : 0xa0 ≤ header.toNat
  · refine ⟨.raw 0 fun _ => header.toNat &&& 0x1f, fun _ _ => low _ (by decide), fun rest => ?_⟩
    rw [readToken, if_neg fixnum, if_neg negative, if_neg wide, if_pos raw]
    rfl
  by_cases array : 0x90 ≤ header.toNat
  · refine ⟨.fixed 0 fun _ => .array (header.toNat &&& 0x0f), fun _ _ => low _ (by decide), fun rest => ?_⟩
    rw [readToken, if_neg fixnum, if_neg negative, if_neg wide, if_neg raw, if_pos array]
    rfl
  · refine ⟨.fixed 0 fun _ => .map (header.toNat &&& 0x0f), fun _ _ => low _ (by decide), fun rest => ?_⟩
    rw [readToken, if_neg fixnum, if_neg negative, if_neg wide, if_neg raw, if_neg array]
    rfl

/-- The bytes `rest` hold the content announced by a header and `size` bytes of it:
it does not matter what follows, and with fewer bytes the reader runs out. -/
structure Reads (read : List UInt8 → Token) (rest : List UInt8) (content : Content) (size : Nat) : Prop where
  fits : content.Fits
  within : size ≤ rest.length
  again : ∀ more, read (rest.take size ++ more) = content.token (1 + size)
  cut : ∀ fewer < size, read (rest.take fewer) = .out

namespace Shape

theorem fixed_reads {count : Nat} {use : List UInt8 → Content} (fits : (Shape.fixed count use).Fits) {rest : List UInt8}
    (within : count ≤ rest.length) : Reads (Shape.fixed count use).read rest (use (rest.take count)) count where
  fits := fits _ (List.length_take_of_le within)
  within := within
  again more := by
    have length : (rest.take count).length = count := List.length_take_of_le within
    rw [read, fixedTrail, if_neg (by rw [List.length_append, length]; omega), List.take_left' length]
  cut fewer less := by
    rw [read, fixedTrail, if_pos (by rw [List.length_take]; omega)]

theorem raw_reads {count : Nat} {length : List UInt8 → Nat} (fits : (Shape.raw count length).Fits) {rest : List UInt8}
    (within : count + length (rest.take count) ≤ rest.length) :
    Reads (Shape.raw count length).read rest (.value (.raw ((rest.drop count).take (length (rest.take count)))))
      (count + length (rest.take count)) where
  fits := by
    refine ⟨?_, rfl⟩
    have short := fits (rest.take count) (List.length_take_of_le (by omega))
    simp only [Object.Packable, List.length_take, List.length_drop]
    omega
  within := within
  again more := by
    have whole : (rest.take (count + length (rest.take count))).length = count + length (rest.take count) :=
      List.length_take_of_le within
    have trail : (rest.take (count + length (rest.take count)) ++ more).take count = rest.take count := by
      rw [List.take_append_of_le_length (by omega), List.take_take, Nat.min_eq_left (by omega)]
    have body : (rest.take (count + length (rest.take count)) ++ more).drop count =
        (rest.drop count).take (length (rest.take count)) ++ more := by
      rw [List.drop_append_of_le_length (by omega), List.drop_take, Nat.add_sub_cancel_left]
    have length' : ((rest.drop count).take (length (rest.take count))).length = length (rest.take count) :=
      List.length_take_of_le (by rw [List.length_drop]; omega)
    rw [read, fixedTrail, if_neg (by rw [List.length_append]; omega), rawValue, trail, body,
      if_neg (by rw [List.length_append]; omega), List.take_left' length', Content.token, Nat.add_assoc]
  cut fewer less := by
    rw [read, fixedTrail]
    split
    · rfl
    · rename_i enough
      have reached : count ≤ fewer := by
        rw [List.length_take] at enough
        omega
      rw [List.take_take, Nat.min_eq_left reached, rawValue, if_pos]
      rw [List.length_drop, List.length_take]
      omega

theorem reads {shape : Shape} (fits : shape.Fits) (rest : List UInt8) :
    shape.read rest = .out ∨ shape.read rest = .failed ∨ ∃ content size, Reads shape.read rest content size := by
  cases shape with
  | failed => exact .inr (.inl rfl)
  | fixed count use =>
      by_cases within : count ≤ rest.length
      · exact .inr (.inr ⟨_, _, fixed_reads fits within⟩)
      · refine .inl ?_
        rw [read, fixedTrail, if_pos (by omega)]
  | raw count length =>
      by_cases within : count + length (rest.take count) ≤ rest.length
      · exact .inr (.inr ⟨_, _, raw_reads fits within⟩)
      · refine .inl ?_
        rw [read, fixedTrail]
        split
        · rfl
        · rw [rawValue, if_pos (by rw [List.length_drop]; omega)]

end Shape

theorem readToken_reads (header : UInt8) (rest : List UInt8) :
    readToken header rest = .out ∨ readToken header rest = .failed ∨
      ∃ content size, Reads (readToken header) rest content size := by
  obtain ⟨shape, fits, same⟩ := readToken_shape header
  have whole : readToken header = shape.read := funext same
  rw [whole]
  exact Shape.reads fits rest

/-- `template_execute` with the fuel it needs. -/
def executeFrom (stack : List Frame) (offset : Nat) (bytes : List UInt8) : Execution :=
  execute bytes.length stack offset bytes

/-- `_push` and what follows it. -/
def settle (stack : List Frame) (object : Object) (offset : Nat) (bytes : List UInt8) : Execution :=
  match push stack object with
  | .inl object => .finished object offset
  | .inr stack => executeFrom stack offset bytes

/-- `start_container`. -/
def startContainer (stack : List Frame) (frame : Frame) (count : Nat) (empty : Object) (offset : Nat)
    (bytes : List UInt8) : Execution :=
  if embedStackSize ≤ stack.length then .failed
  else if count = 0 then settle stack empty offset bytes
  else executeFrom (frame :: stack) offset bytes

def proceed (stack : List Frame) (content : Content) (offset : Nat) (bytes : List UInt8) : Execution :=
  match content with
  | .value object => settle stack object offset bytes
  | .array count => startContainer stack (.arrayItem count []) count (.array []) offset bytes
  | .map count => startContainer stack (.mapKey count []) count (.map []) offset bytes

theorem Reads.here {read : List UInt8 → Token} {rest : List UInt8} {content : Content} {size : Nat}
    (reads : Reads read rest content size) : read rest = content.token (1 + size) := by
  have again := reads.again (rest.drop size)
  rwa [List.take_append_drop] at again

/-- More fuel than there are bytes makes no difference. -/
theorem execute_fuel {fuel other : Nat} {stack : List Frame} {offset : Nat} {bytes : List UInt8}
    (enough : bytes.length ≤ fuel) (enoughOther : bytes.length ≤ other) :
    execute fuel stack offset bytes = execute other stack offset bytes := by
  induction fuel generalizing other stack offset bytes with
  | zero =>
      obtain rfl : bytes = [] := List.length_eq_zero_iff.mp (by omega)
      cases other <;> rfl
  | succ fuel ih =>
      cases bytes with
      | nil => cases other <;> rfl
      | cons header rest =>
          rw [List.length_cons] at enough enoughOther
          obtain ⟨other, rfl⟩ : ∃ fewer, other = fewer + 1 := ⟨other - 1, by omega⟩
          have later (stack : List Frame) (offset size : Nat) :
              execute fuel stack offset ((header :: rest).drop (1 + size)) =
                execute other stack offset ((header :: rest).drop (1 + size)) := by
            apply ih
            · rw [Nat.add_comm, List.drop_succ_cons, List.length_drop]
              omega
            · rw [Nat.add_comm, List.drop_succ_cons, List.length_drop]
              omega
          rcases readToken_reads header rest with out | failed | ⟨content, size, reads⟩
          · simp only [execute, out]
          · simp only [execute, failed]
          · have here := reads.here
            cases content with
            | value object => simp only [execute, here, Content.token, later]
            | array count => simp only [execute, here, Content.token, later]
            | map count => simp only [execute, here, Content.token, later]

theorem executeFrom_out {stack : List Frame} {offset : Nat} {header : UInt8} {rest : List UInt8}
    (token : readToken header rest = .out) : executeFrom stack offset (header :: rest) = .out := by
  simp only [executeFrom, List.length_cons, execute, token]

theorem executeFrom_failed {stack : List Frame} {offset : Nat} {header : UInt8} {rest : List UInt8}
    (token : readToken header rest = .failed) : executeFrom stack offset (header :: rest) = .failed := by
  simp only [executeFrom, List.length_cons, execute, token]

theorem executeFrom_token {stack : List Frame} {offset size : Nat} {header : UInt8} {rest : List UInt8}
    {content : Content} (token : readToken header rest = content.token (1 + size)) :
    executeFrom stack offset (header :: rest) = proceed stack content (offset + (1 + size)) (rest.drop size) := by
  have later (stack : List Frame) (offset : Nat) :
      execute rest.length stack offset ((header :: rest).drop (1 + size)) = executeFrom stack offset (rest.drop size) := by
    rw [Nat.add_comm, List.drop_succ_cons, executeFrom]
    exact execute_fuel (by rw [List.length_drop]; omega) (Nat.le_refl _)
  cases content with
  | value object =>
      cases pushed : push stack object <;>
        simp only [executeFrom, List.length_cons, execute, token, Content.token, later, proceed, settle, pushed]
  | array count =>
      cases pushed : push stack (.array []) <;>
        simp only [executeFrom, List.length_cons, execute, token, Content.token, later, proceed, startContainer, settle,
          pushed]
  | map count =>
      cases pushed : push stack (.map []) <;>
        simp only [executeFrom, List.length_cons, execute, token, Content.token, later, proceed, startContainer, settle,
          pushed]

theorem unpackNext_eq (bytes : List UInt8) :
    unpackNext bytes = match executeFrom [] 0 bytes with
      | .finished object offset => some (object, offset)
      | _ => none := rfl

end Webapp.MsgPack

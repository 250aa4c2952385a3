import Webapp.MsgPack.Tokens

namespace Webapp.MsgPack

open Webapp.Data

/-! `msgpack_pack_object`, and what `template_execute` makes of its output: it has a
stack of fixed size for the containers that are open.
-/

/-- `msgpack_pack_int64`. -/
def packInt64 (d : Int) : List UInt8 :=
  if d < -2 ^ 5 then
    if d < -2 ^ 15 then
      if d < -2 ^ 31 then 0xd3 :: storeSigned 8 d
      else 0xd2 :: storeSigned 4 d
    else if d < -2 ^ 7 then 0xd1 :: storeSigned 2 d
    else 0xd0 :: storeSigned 1 d
  else if d < 2 ^ 7 then storeSigned 1 d
  else if d < 2 ^ 16 then
    if d < 2 ^ 8 then 0xcc :: storeSigned 1 d
    else 0xcd :: storeSigned 2 d
  else if d < 2 ^ 32 then 0xce :: storeSigned 4 d
  else 0xcf :: storeSigned 8 d

/-- `msgpack_pack_double`, on the bytes of the number. -/
def packDouble (bytes : List UInt8) : List UInt8 := 0xcb :: bytes

def packTrue : List UInt8 := [0xc3]

def packFalse : List UInt8 := [0xc2]

/-- The header of a container of `n` objects or pairs, in its three forms. -/
def packCount (fixed half word : UInt8) (n : Nat) : List UInt8 :=
  if n < 16 then [fixed ||| UInt8.ofNat n]
  else if n < 65536 then half :: storeBE 2 n
  else word :: storeBE 4 n

def packArray (n : Nat) : List UInt8 := packCount 0x90 0xdc 0xdd n

def packMap (n : Nat) : List UInt8 := packCount 0x80 0xde 0xdf n

mutual

def packObject : Object → List UInt8
  | .nil => packNil
  | .boolean value => if value then packTrue else packFalse
  | .positiveInteger value => packUint64 value
  | .negativeInteger value => packInt64 value
  | .double bytes => packDouble bytes
  | .raw bytes => packRaw bytes.length ++ packRawBody bytes
  | .array items => packArray items.length ++ packObjects items
  | .map items => packMap items.length ++ packPairs items

def packObjects : List Object → List UInt8
  | [] => []
  | object :: objects => packObject object ++ packObjects objects

def packPairs : List (Object × Object) → List UInt8
  | [] => []
  | pair :: pairs => packPair pair ++ packPairs pairs

def packPair : Object × Object → List UInt8
  | (key, value) => packObject key ++ packObject value

end

theorem packInt64_encodes {d : Int} (lower : -2 ^ 63 ≤ d) (upper : d < 0) : Encodes (packInt64 d) (.negativeInteger d) := by
  have negative : integerObject d = .negativeInteger d := if_neg (by omega)
  rw [← negative]
  by_cases wide : d < -2 ^ 31
  · rw [packInt64, if_pos (by omega), if_pos (by omega), if_pos wide]
    apply Encodes.of_value
    intro rest
    have token : readToken 0xd3 (storeSigned 8 d ++ rest) =
        fixedTrail (storeSigned 8 d ++ rest) 8 fun trail => .value (signedInteger trail) (1 + 8) := rfl
    rw [token, fixedTrail, if_neg (by simp), List.take_left' (storeSigned_length 8 d),
      signedInteger_storeSigned (by omega) (by omega), storeSigned_length]
  · have same : packInt64 d = packInt d := by
      rw [packInt64, packInt]
      split_ifs <;> first | rfl | omega
    rw [same]
    exact packInt_encodes (by omega) (by omega)

theorem packDouble_encodes {bytes : List UInt8} (width : bytes.length = 8) :
    Encodes (packDouble bytes) (.double bytes) := by
  apply Encodes.of_value
  intro rest
  have token : readToken 0xcb (bytes ++ rest) =
      fixedTrail (bytes ++ rest) 8 fun trail => .value (.double trail) (1 + 8) := rfl
  rw [token, fixedTrail, if_neg (by rw [List.length_append]; omega), List.take_left' width, width]

theorem packObject_encodes {object : Object} (plain : object.isContainer = false) (packable : object.Packable) :
    Encodes (packObject object) object := by
  cases object with
  | nil => exact packNil_encodes
  | boolean value =>
      cases value with
      | true => exact Encodes.of_value fun rest => rfl
      | false => exact Encodes.of_value fun rest => rfl
  | positiveInteger value => exact packUint64_encodes packable
  | negativeInteger value => exact packInt64_encodes packable.1 packable.2
  | double bytes => exact packDouble_encodes packable
  | raw bytes => exact packRaw_encodes bytes packable
  | array items => contradiction
  | map items => contradiction

variable {stack : List Frame} {offset : Nat} {rest : List UInt8}

theorem executeFrom_encodes {bytes : List UInt8} {object : Object} (encodes : Encodes bytes object)
    (plain : object.isContainer = false) (stack : List Frame) (offset : Nat) (rest : List UInt8) :
    executeFrom stack offset (bytes ++ rest) = settle stack object (offset + bytes.length) rest := by
  obtain ⟨header, tail, shape, token⟩ := unpackNext_plain plain (encodes rest)
  rcases readToken_reads header tail with out | failed | ⟨content, size, reads⟩
  · cases out.symm.trans token
  · cases failed.symm.trans token
  · have here := reads.here
    rw [token] at here
    cases content with
    | array count => cases here
    | map count => cases here
    | value other =>
        injection here with same length
        have left : rest = tail.drop size := by
          have behind := congrArg (List.drop bytes.length) shape
          rwa [List.drop_left, length, Nat.add_comm, List.drop_succ_cons] at behind
        rw [shape, executeFrom_token (reads.here), proceed, ← same, length, left]

theorem executeFrom_packCount {fixed half word : UInt8} {container : Nat → Content} {n : Nat} (bounded : n < 2 ^ 32)
    (small : ∀ n < 16, ∀ rest, readToken (fixed ||| UInt8.ofNat n) rest = (container n).token 1)
    (middle : ∀ rest, readToken half rest = fixedTrail rest 2 fun trail => (container (loadBE trail)).token (1 + 2))
    (large : ∀ rest, readToken word rest = fixedTrail rest 4 fun trail => (container (loadBE trail)).token (1 + 4))
    (stack : List Frame) (offset : Nat) (rest : List UInt8) :
    executeFrom stack offset (packCount fixed half word n ++ rest) =
      proceed stack (container n) (offset + (packCount fixed half word n).length) rest := by
  have wide (header : UInt8) (width : Nat) (fits : n < 256 ^ width)
      (token : ∀ rest, readToken header rest =
        fixedTrail rest width fun trail => (container (loadBE trail)).token (1 + width)) :
      executeFrom stack offset (header :: storeBE width n ++ rest) =
        proceed stack (container n) (offset + (header :: storeBE width n).length) rest := by
    have read : readToken header (storeBE width n ++ rest) = (container n).token (1 + width) := by
      rw [token, fixedTrail, if_neg (by simp), List.take_left' (storeBE_length _ _), loadBE_storeBE fits]
    rw [List.cons_append, executeFrom_token read, List.drop_left' (storeBE_length _ _), List.length_cons, storeBE_length,
      Nat.add_comm 1]
  rw [packCount]
  split
  · rename_i few
    have read : readToken (fixed ||| UInt8.ofNat n) rest = (container n).token (1 + 0) := small n few rest
    exact executeFrom_token read
  · split
    · exact wide half 2 (by omega) middle
    · exact wide word 4 (by omega) large

theorem executeFrom_packArray {n : Nat} (bounded : n < 2 ^ 32) (stack : List Frame) (offset : Nat) (rest : List UInt8) :
    executeFrom stack offset (packArray n ++ rest) =
      startContainer stack (.arrayItem n []) n (.array []) (offset + (packArray n).length) rest := by
  have header : ∀ n < 16, (0x90 ||| UInt8.ofNat n).toNat = 0x90 + n ∧ (0x90 + n) &&& 0x0f = n := by decide
  have small : ∀ n < 16, ∀ rest, readToken (0x90 ||| UInt8.ofNat n) rest = (Content.array n).token 1 := by
    intro n few rest
    obtain ⟨byte, count⟩ := header n few
    simp only [readToken, byte, count]
    rw [if_neg (by omega), if_neg (by omega), if_neg (by omega), if_neg (by omega), if_pos (by omega)]
    rfl
  exact executeFrom_packCount bounded small (fun _ => rfl) (fun _ => rfl) stack offset rest

theorem executeFrom_packMap {n : Nat} (bounded : n < 2 ^ 32) (stack : List Frame) (offset : Nat) (rest : List UInt8) :
    executeFrom stack offset (packMap n ++ rest) =
      startContainer stack (.mapKey n []) n (.map []) (offset + (packMap n).length) rest := by
  have header : ∀ n < 16, (0x80 ||| UInt8.ofNat n).toNat = 0x80 + n ∧ (0x80 + n) &&& 0x0f = n := by decide
  have small : ∀ n < 16, ∀ rest, readToken (0x80 ||| UInt8.ofNat n) rest = (Content.map n).token 1 := by
    intro n few rest
    obtain ⟨byte, count⟩ := header n few
    simp only [readToken, byte, count]
    rw [if_neg (by omega), if_neg (by omega), if_neg (by omega), if_neg (by omega), if_neg (by omega)]
    rfl
  exact executeFrom_packCount bounded small (fun _ => rfl) (fun _ => rfl) stack offset rest

theorem settle_arrayItem (count : Nat) (items : List Object) (object : Object) (stack : List Frame) (offset : Nat)
    (bytes : List UInt8) :
    settle (.arrayItem (count + 1) items :: stack) object offset bytes =
      if count = 0 then settle stack (.array (items ++ [object])) offset bytes
      else executeFrom (.arrayItem count (items ++ [object]) :: stack) offset bytes := by
  cases count with
  | zero => rfl
  | succ count => rfl

theorem settle_mapKey (count : Nat) (items : List (Object × Object)) (key : Object) (stack : List Frame) (offset : Nat)
    (bytes : List UInt8) :
    settle (.mapKey count items :: stack) key offset bytes =
      executeFrom (.mapValue count items key :: stack) offset bytes := rfl

theorem settle_mapValue (count : Nat) (items : List (Object × Object)) (key value : Object) (stack : List Frame)
    (offset : Nat) (bytes : List UInt8) :
    settle (.mapValue (count + 1) items key :: stack) value offset bytes =
      if count = 0 then settle stack (.map (items ++ [(key, value)])) offset bytes
      else executeFrom (.mapKey count (items ++ [(key, value)]) :: stack) offset bytes := by
  cases count with
  | zero => rfl
  | succ count => rfl

/-- Where the stack has room for the object, its encoding is read as it. -/
def Unpacks (object : Object) : Prop :=
  ∀ stack offset rest, stack.length + object.depth ≤ embedStackSize →
    executeFrom stack offset (packObject object ++ rest) =
      settle stack object (offset + (packObject object).length) rest

/-- Where it has not, the unpacker fails. -/
def Overflows (object : Object) : Prop :=
  ∀ stack offset rest, stack.length ≤ embedStackSize → embedStackSize < stack.length + object.depth →
    executeFrom stack offset (packObject object ++ rest) = .failed

theorem executeFrom_items {items : List Object} (each : ∀ object ∈ items, Unpacks object) (nonempty : items ≠ [])
    (room : ∀ object ∈ items, stack.length + 1 + object.depth ≤ embedStackSize) (done : List Object) (offset : Nat) :
    executeFrom (.arrayItem items.length done :: stack) offset (packObjects items ++ rest) =
      settle stack (.array (done ++ items)) (offset + (packObjects items).length) rest := by
  induction items generalizing done offset with
  | nil => contradiction
  | cons first items ih =>
      rw [List.forall_mem_cons] at each room
      have head := each.1 (.arrayItem (items.length + 1) done :: stack) offset (packObjects items ++ rest) room.1
      rw [packObjects, List.append_assoc, List.length_cons, head, settle_arrayItem]
      cases items with
      | nil => simp [packObjects]
      | cons second items =>
          rw [if_neg (by simp), ih each.2 (by simp) room.2, List.append_assoc, List.singleton_append, List.length_append,
            Nat.add_assoc]

theorem executeFrom_pairs {items : List (Object × Object)} (each : ∀ pair ∈ items, Unpacks pair.1 ∧ Unpacks pair.2)
    (nonempty : items ≠ [])
    (room : ∀ pair ∈ items, stack.length + 1 + pair.1.depth ≤ embedStackSize ∧
      stack.length + 1 + pair.2.depth ≤ embedStackSize) (done : List (Object × Object)) (offset : Nat) :
    executeFrom (.mapKey items.length done :: stack) offset (packPairs items ++ rest) =
      settle stack (.map (done ++ items)) (offset + (packPairs items).length) rest := by
  induction items generalizing done offset with
  | nil => contradiction
  | cons first items ih =>
      obtain ⟨key, value⟩ := first
      rw [List.forall_mem_cons] at each room
      obtain ⟨⟨unpacksKey, unpacksValue⟩, later⟩ := each
      obtain ⟨⟨shallowKey, shallowValue⟩, roomLater⟩ := room
      have first : _ = settle _ key _ _ := unpacksKey (.mapKey (items.length + 1) done :: stack) offset
        (packObject value ++ (packPairs items ++ rest)) shallowKey
      have second : _ = settle _ value _ _ := unpacksValue (.mapValue (items.length + 1) done key :: stack)
        (offset + (packObject key).length) (packPairs items ++ rest) shallowValue
      rw [packPairs, packPair, List.append_assoc, List.append_assoc, List.length_cons, first, settle_mapKey, second,
        settle_mapValue]
      cases items with
      | nil => simp [packPairs, Nat.add_assoc]
      | cons second items =>
          rw [if_neg (by simp), ih later (by simp) roomLater, List.append_assoc, List.singleton_append,
            List.length_append, List.length_append, Nat.add_assoc, Nat.add_assoc, Nat.add_assoc]

theorem executeFrom_items_deep {items : List Object} (each : ∀ object ∈ items, Unpacks object ∧ Overflows object)
    (room : stack.length + 1 ≤ embedStackSize)
    (deep : ∃ object ∈ items, embedStackSize < stack.length + 1 + object.depth) (done : List Object) (offset : Nat) :
    executeFrom (.arrayItem items.length done :: stack) offset (packObjects items ++ rest) = .failed := by
  induction items generalizing done offset with
  | nil =>
      obtain ⟨object, member, _⟩ := deep
      contradiction
  | cons first items ih =>
      rw [List.forall_mem_cons] at each
      obtain ⟨⟨unpacks, overflows⟩, later⟩ := each
      rw [packObjects, List.append_assoc]
      by_cases here : stack.length + 1 + first.depth ≤ embedStackSize
      · -- The first one that is too deep comes later, so this one is not the last.
        obtain ⟨object, member, exceeds⟩ := deep
        obtain rfl | member := List.mem_cons.mp member
        · omega
        · have head := unpacks (.arrayItem (items.length + 1) done :: stack) offset (packObjects items ++ rest) here
          rw [List.length_cons, head, settle_arrayItem, if_neg, ih later ⟨object, member, exceeds⟩]
          intro none
          rw [List.length_eq_zero_iff.mp none] at member
          contradiction
      · exact overflows _ _ _ room (by simpa using here)

theorem executeFrom_pairs_deep {items : List (Object × Object)}
    (each : ∀ pair ∈ items, (Unpacks pair.1 ∧ Overflows pair.1) ∧ Unpacks pair.2 ∧ Overflows pair.2)
    (room : stack.length + 1 ≤ embedStackSize)
    (deep : ∃ pair ∈ items, embedStackSize < stack.length + 1 + pair.1.depth ∨
      embedStackSize < stack.length + 1 + pair.2.depth) (done : List (Object × Object)) (offset : Nat) :
    executeFrom (.mapKey items.length done :: stack) offset (packPairs items ++ rest) = .failed := by
  induction items generalizing done offset with
  | nil =>
      obtain ⟨pair, member, _⟩ := deep
      contradiction
  | cons first items ih =>
      obtain ⟨key, value⟩ := first
      rw [List.forall_mem_cons] at each
      obtain ⟨⟨⟨unpacksKey, overflowsKey⟩, unpacksValue, overflowsValue⟩, later⟩ := each
      rw [packPairs, packPair, List.append_assoc, List.append_assoc]
      by_cases shallowKey : stack.length + 1 + key.depth ≤ embedStackSize
      · have first := unpacksKey (.mapKey (items.length + 1) done :: stack) offset
          (packObject value ++ (packPairs items ++ rest)) shallowKey
        rw [List.length_cons, first, settle_mapKey]
        by_cases shallowValue : stack.length + 1 + value.depth ≤ embedStackSize
        · obtain ⟨pair, member, exceeds⟩ := deep
          obtain rfl | member := List.mem_cons.mp member
          · dsimp only at exceeds
            omega
          · have second := unpacksValue (.mapValue (items.length + 1) done key :: stack)
              (offset + (packObject key).length) (packPairs items ++ rest) shallowValue
            rw [second, settle_mapValue, if_neg, ih later ⟨pair, member, exceeds⟩]
            intro none
            rw [List.length_eq_zero_iff.mp none] at member
            contradiction
        · exact overflowsValue _ _ _ room (by simpa using shallowValue)
      · exact overflowsKey _ _ _ room (by simpa using shallowKey)

theorem array_unpacks {items : List Object} (bounded : items.length < 2 ^ 32) (each : ∀ object ∈ items, Unpacks object) :
    Unpacks (.array items) := by
  intro stack offset rest room
  rw [Object.depth] at room
  have shallow : ∀ object ∈ items, stack.length + 1 + object.depth ≤ embedStackSize := by
    intro object member
    have bound := Object.depths_le_iff.mp (Nat.le_refl (Object.depths items)) object member
    omega
  rw [packObject, List.append_assoc, executeFrom_packArray bounded, startContainer, if_neg (by omega)]
  split
  · rename_i empty
    obtain rfl := List.length_eq_zero_iff.mp empty
    simp [packObjects]
  · rename_i some
    have nonempty : items ≠ [] := fun empty => some (by rw [empty]; rfl)
    rw [executeFrom_items each nonempty shallow, List.nil_append, List.length_append, Nat.add_assoc]

theorem map_unpacks {items : List (Object × Object)} (bounded : items.length < 2 ^ 32)
    (each : ∀ pair ∈ items, Unpacks pair.1 ∧ Unpacks pair.2) : Unpacks (.map items) := by
  intro stack offset rest room
  rw [Object.depth] at room
  have shallow : ∀ pair ∈ items, stack.length + 1 + pair.1.depth ≤ embedStackSize ∧
      stack.length + 1 + pair.2.depth ≤ embedStackSize := by
    intro pair member
    have bound := Object.depthPairs_le_iff.mp (Nat.le_refl (Object.depthPairs items)) pair member
    omega
  rw [packObject, List.append_assoc, executeFrom_packMap bounded, startContainer, if_neg (by omega)]
  split
  · rename_i empty
    obtain rfl := List.length_eq_zero_iff.mp empty
    simp [packPairs]
  · rename_i some
    have nonempty : items ≠ [] := fun empty => some (by rw [empty]; rfl)
    rw [executeFrom_pairs each nonempty shallow, List.nil_append, List.length_append, Nat.add_assoc]

theorem array_overflows {items : List Object} (bounded : items.length < 2 ^ 32)
    (each : ∀ object ∈ items, Unpacks object ∧ Overflows object) : Overflows (.array items) := by
  intro stack offset rest room deep
  rw [Object.depth] at deep
  rw [packObject, List.append_assoc, executeFrom_packArray bounded, startContainer]
  split
  · rfl
  · have tooDeep : ∃ object ∈ items, embedStackSize < stack.length + 1 + object.depth := by
      by_contra none
      push Not at none
      have most : Object.depths items ≤ embedStackSize - (stack.length + 1) := by
        rw [Object.depths_le_iff]
        intro object member
        have bound := none object member
        omega
      omega
    have nonempty : items.length ≠ 0 := by
      obtain ⟨object, member, _⟩ := tooDeep
      exact List.length_pos_of_mem member |>.ne'
    rw [if_neg nonempty, executeFrom_items_deep each (by omega) tooDeep]

theorem map_overflows {items : List (Object × Object)} (bounded : items.length < 2 ^ 32)
    (each : ∀ pair ∈ items, (Unpacks pair.1 ∧ Overflows pair.1) ∧ Unpacks pair.2 ∧ Overflows pair.2) :
    Overflows (.map items) := by
  intro stack offset rest room deep
  rw [Object.depth] at deep
  rw [packObject, List.append_assoc, executeFrom_packMap bounded, startContainer]
  split
  · rfl
  · have tooDeep : ∃ pair ∈ items, embedStackSize < stack.length + 1 + pair.1.depth ∨
        embedStackSize < stack.length + 1 + pair.2.depth := by
      by_contra none
      push Not at none
      have most : Object.depthPairs items ≤ embedStackSize - (stack.length + 1) := by
        rw [Object.depthPairs_le_iff]
        intro pair member
        have bound := none pair member
        omega
      omega
    have nonempty : items.length ≠ 0 := by
      obtain ⟨pair, member, _⟩ := tooDeep
      exact List.length_pos_of_mem member |>.ne'
    rw [if_neg nonempty, executeFrom_pairs_deep each (by omega) tooDeep]

theorem packable_unpacks (object : Object) : object.Packable → Unpacks object ∧ Overflows object := by
  induction object using Object.nested_induction with
  | plain object plain =>
      intro packable
      refine ⟨fun stack offset rest _ => executeFrom_encodes (packObject_encodes plain packable) plain stack offset rest, ?_⟩
      intro stack offset rest room deep
      rw [Object.depth_plain plain] at deep
      omega
  | array items ih =>
      intro packable
      obtain ⟨bounded, all⟩ := packable
      rw [Object.packableAll_iff] at all
      have each : ∀ object ∈ items, Unpacks object ∧ Overflows object := fun object member =>
        ih object member (all object member)
      exact ⟨array_unpacks bounded fun object member => (each object member).1, array_overflows bounded each⟩
  | map items ih =>
      intro packable
      obtain ⟨bounded, all⟩ := packable
      rw [Object.packablePairs_iff] at all
      have each : ∀ pair ∈ items, (Unpacks pair.1 ∧ Overflows pair.1) ∧ Unpacks pair.2 ∧ Overflows pair.2 :=
        fun pair member => ⟨(ih pair member).1 (all pair member).1, (ih pair member).2 (all pair member).2⟩
      exact ⟨map_unpacks bounded fun pair member => ⟨(each pair member).1.1, (each pair member).2.1⟩,
        map_overflows bounded each⟩

/-- What `msgpack_pack_object` writes is unpacked to the same object, whatever comes
behind it, exactly if no more containers are nested in it than the stack has
entries. -/
theorem unpackNext_packObject (object : Object) (packable : object.Packable) (rest : List UInt8) :
    unpackNext (packObject object ++ rest) =
      if object.depth ≤ 32 then some (object, (packObject object).length) else none := by
  obtain ⟨unpacks, overflows⟩ := packable_unpacks object packable
  rw [unpackNext_eq]
  by_cases shallow : object.depth ≤ 32
  · rw [unpacks [] 0 rest (by simpa [embedStackSize] using shallow), settle, push, Nat.zero_add, if_pos shallow]
  · rw [overflows [] 0 rest (by simp) (by simpa [embedStackSize] using shallow), if_neg shallow]

/-- An array of a map and a number of four bytes. -/
def nestedSample : Object := .array [.map [(.raw [0x61], .positiveInteger 300)], .negativeInteger (-70000)]

theorem unpackNext_packObject_nested :
    unpackNext (packObject nestedSample ++ [0xc1]) = some (nestedSample, 12) := by
  have packable : nestedSample.Packable := by
    simp [nestedSample, Object.Packable, Object.PackableAll, Object.PackablePairs, Object.PackablePair]
  have shallow : nestedSample.depth ≤ 32 := by decide
  exact (unpackNext_packObject nestedSample packable [0xc1]).trans (if_pos shallow)

end Webapp.MsgPack

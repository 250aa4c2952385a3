import Webapp.MsgPack.Unpack

namespace Webapp.MsgPack

open Webapp.Data

/-! The packers of `pack_template.h`.  Each one makes a single call of the
write callback, so a packer is the byte string it passes there.
-/

def packUint64 (d : Nat) : List UInt8 :=
  if d < 2 ^ 8 then
    if d < 2 ^ 7 then [UInt8.ofNat d]
    else [0xcc, UInt8.ofNat d]
  else if d < 2 ^ 16 then 0xcd :: storeBE 2 d
  else if d < 2 ^ 32 then 0xce :: storeBE 4 d
  else 0xcf :: storeBE 8 d

/-- The low `width` bytes of a signed number, as `_msgpack_storeN` leaves them. -/
def storeSigned (width : Nat) (d : Int) : List UInt8 :=
  storeBE width (d % 256 ^ width).toNat

/-- `msgpack_pack_int`, where `int` has 32 bits. -/
def packInt (d : Int) : List UInt8 :=
  if d < -2 ^ 5 then
    if d < -2 ^ 15 then 0xd2 :: storeSigned 4 d
    else if d < -2 ^ 7 then 0xd1 :: storeSigned 2 d
    else 0xd0 :: storeSigned 1 d
  else if d < 2 ^ 7 then storeSigned 1 d
  else if d < 2 ^ 8 then 0xcc :: storeSigned 1 d
  else if d < 2 ^ 16 then 0xcd :: storeSigned 2 d
  else 0xce :: storeSigned 4 d

def packNil : List UInt8 := [0xc0]

/-- `msgpack_pack_raw`: the header of a raw of `l` bytes. -/
def packRaw (l : Nat) : List UInt8 :=
  if l < 32 then [0xa0 ||| UInt8.ofNat l]
  else if l < 65536 then 0xda :: storeBE 2 l
  else 0xdb :: storeBE 4 l

def packRawBody (b : List UInt8) : List UInt8 := b

/-- The five encodings the format has for an unsigned integer. -/
inductive UintForm where
  | fixnum
  | uint8
  | uint16
  | uint32
  | uint64
deriving DecidableEq, Repr

namespace UintForm

def trail : UintForm → Nat
  | fixnum => 0
  | uint8 => 1
  | uint16 => 2
  | uint32 => 4
  | uint64 => 8

def size (form : UintForm) : Nat := 1 + form.trail

/-- Numbers below this have an encoding of the form. -/
def limit : UintForm → Nat
  | fixnum => 2 ^ 7
  | form => 256 ^ form.trail

def encode : UintForm → Nat → List UInt8
  | fixnum, value => [UInt8.ofNat value]
  | uint8, value => 0xcc :: storeBE 1 value
  | uint16, value => 0xcd :: storeBE 2 value
  | uint32, value => 0xce :: storeBE 4 value
  | uint64, value => 0xcf :: storeBE 8 value

@[simp] theorem encode_length (form : UintForm) (value : Nat) : (form.encode value).length = form.size := by
  cases form <;> simp [encode, size, trail]

theorem size_pos (form : UintForm) : 0 < form.size := by
  rw [size]
  omega

theorem size_le (form : UintForm) : form.size ≤ 9 := by
  cases form <;> decide

def shortest (value : Nat) : UintForm :=
  if value < 2 ^ 7 then fixnum
  else if value < 2 ^ 8 then uint8
  else if value < 2 ^ 16 then uint16
  else if value < 2 ^ 32 then uint32
  else uint64

theorem shortest_fits {value : Nat} (bounded : value < 2 ^ 64) : value < (shortest value).limit := by
  rw [shortest]
  split
  · assumption
  · split
    · simpa [limit, trail] using ‹value < 2 ^ 8›
    · split
      · simpa [limit, trail] using ‹value < 2 ^ 16›
      · split
        · simpa [limit, trail] using ‹value < 2 ^ 32›
        · simpa [limit, trail] using bounded

/-- No form that can hold the number is shorter. -/
theorem shortest_minimal {value : Nat} {form : UintForm} (fits : value < form.limit) :
    (shortest value).size ≤ form.size := by
  simp only [limit, trail] at fits
  rw [shortest]
  split_ifs with tiny small medium large
  · exact form.size_pos
  · cases form with
    | fixnum => exact absurd fits tiny
    | _ => decide
  · cases form with
    | fixnum => exact absurd fits tiny
    | uint8 => exact absurd fits small
    | _ => decide
  · cases form with
    | fixnum => exact absurd fits tiny
    | uint8 => exact absurd fits small
    | uint16 => exact absurd fits medium
    | _ => decide
  · cases form with
    | fixnum => exact absurd fits tiny
    | uint8 => exact absurd fits small
    | uint16 => exact absurd fits medium
    | uint32 => exact absurd fits large
    | uint64 => decide

end UintForm

theorem packUint64_eq_encode (d : Nat) : packUint64 d = (UintForm.shortest d).encode d := by
  rw [packUint64, UintForm.shortest]
  by_cases small : d < 2 ^ 8
  · by_cases tiny : d < 2 ^ 7
    · rw [if_pos small, if_pos tiny, if_pos tiny]
      rfl
    · rw [if_pos small, if_neg tiny, if_neg tiny, if_pos small]
      simp [UintForm.encode, storeBE]
  · have big : ¬ d < 2 ^ 7 := by omega
    rw [if_neg small, if_neg big, if_neg small]
    split_ifs <;> rfl

theorem unpackNext_encode (form : UintForm) {value : Nat} (fits : value < form.limit) (rest : List UInt8) :
    unpackNext (form.encode value ++ rest) = some (.positiveInteger value, form.size) := by
  have loaded {width : Nat} (bound : value < 256 ^ width) : loadBE (storeBE width value) = value :=
    loadBE_storeBE bound
  have wide (header : UInt8) (width : Nat) (bound : value < 256 ^ width)
      (token : ∀ bytes, readToken header bytes =
        fixedTrail bytes width fun trail => .value (.positiveInteger (loadBE trail)) (1 + width)) :
      unpackNext (header :: storeBE width value ++ rest) = some (.positiveInteger value, 1 + width) := by
    apply unpackNext_of_value
    simp [token, fixedTrail, loaded bound]
  cases form with
  | fixnum =>
      apply unpackNext_of_value
      have byte : (UInt8.ofNat value).toNat = value := by
        simp only [UintForm.limit, Nat.reducePow] at fits
        simp only [UInt8.toNat_ofNat', Nat.reducePow]
        omega
      have small : value ≤ 0x7f := by
        simp only [UintForm.limit, Nat.reducePow] at fits
        omega
      simp [readToken, byte, small, UintForm.size, UintForm.trail]
  | uint8 => exact wide 0xcc 1 fits (fun _ => rfl)
  | uint16 => exact wide 0xcd 2 fits (fun _ => rfl)
  | uint32 => exact wide 0xce 4 fits (fun _ => rfl)
  | uint64 => exact wide 0xcf 8 fits (fun _ => rfl)

/-- Of a stream that begins with a number, as many bytes as have arrived. -/
theorem unpackNext_take_encode (form : UintForm) {value : Nat} (fits : value < form.limit) (further : List UInt8)
    (count : Nat) :
    unpackNext ((form.encode value ++ further).take count) =
      if count < form.size then none else some (.positiveInteger value, form.size) := by
  have alone := unpackNext_encode form fits []
  rw [List.append_nil, ← form.encode_length value] at alone
  have taken := unpackNext_take_integer alone further count
  rwa [form.encode_length] at taken

end Webapp.MsgPack

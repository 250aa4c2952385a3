import Webapp.MsgPack.Pack

namespace Webapp.MsgPack

open Webapp.Data

/-- The bytes are an encoding of the object, whatever follows them. -/
def Encodes (bytes : List UInt8) (object : Object) : Prop :=
  ∀ rest, unpackNext (bytes ++ rest) = some (object, bytes.length)

/-- Calls of `msgpack_unpack_next`, each one from where the last one stopped.
The result is the objects and the bytes behind them. -/
def unpackMany : Nat → List UInt8 → Option (List Object × List UInt8)
  | 0, bytes => some ([], bytes)
  | count + 1, bytes =>
      (unpackNext bytes).bind fun (object, size) =>
        (unpackMany count (bytes.drop size)).map fun (objects, rest) => (object :: objects, rest)

theorem unpackMany_encodings {encodings : List (List UInt8 × Object)}
    (encoded : ∀ encoding ∈ encodings, Encodes encoding.1 encoding.2) (rest : List UInt8) :
    unpackMany encodings.length ((encodings.map Prod.fst).flatten ++ rest) =
      some (encodings.map Prod.snd, rest) := by
  induction encodings with
  | nil => rfl
  | cons encoding encodings ih =>
      have first := encoded encoding (by simp) ((encodings.map Prod.fst).flatten ++ rest)
      have later := ih fun encoding member => encoded encoding (by simp [member])
      simp only [List.length_cons, List.map_cons, List.flatten_cons, List.append_assoc, unpackMany,
        first, Option.bind_some, List.drop_left, later, Option.map_some]

theorem Encodes.of_value {header : UInt8} {trail : List UInt8} {object : Object}
    (token : ∀ rest, readToken header (trail ++ rest) = .value object (1 + trail.length)) :
    Encodes (header :: trail) object := by
  intro rest
  have value := unpackNext_of_value (token rest)
  simpa only [List.cons_append, List.length_cons, Nat.add_comm 1] using value

theorem packUint64_encodes {d : Nat} (bounded : d < 2 ^ 64) :
    Encodes (packUint64 d) (.positiveInteger d) := by
  intro rest
  rw [packUint64_eq_encode, unpackNext_encode _ (UintForm.shortest_fits bounded), UintForm.encode_length]

theorem packNil_encodes : Encodes packNil .nil := by
  apply Encodes.of_value
  intro rest
  rfl

def integerObject (d : Int) : Object :=
  if 0 ≤ d then .positiveInteger d.toNat else .negativeInteger d

@[simp] theorem storeSigned_length (width : Nat) (d : Int) : (storeSigned width d).length = width := by
  simp [storeSigned]

theorem signedInteger_storeSigned {width : Nat} {d : Int}
    (lower : -(256 ^ width : Int) ≤ 2 * d) (upper : 2 * d < 256 ^ width) :
    signedInteger (storeSigned width d) = integerObject d := by
  have cast : ((256 ^ width : Nat) : Int) = 256 ^ width := Int.natCast_pow 256 width
  have positive : (0 : Int) < 256 ^ width := Int.pow_pos (by decide)
  have loaded : loadBE (storeSigned width d) = (d % 256 ^ width).toNat := by
    apply loadBE_storeBE
    have below := Int.emod_lt_of_pos d positive
    omega
  simp only [signedInteger, loaded, integerObject, storeSigned_length]
  by_cases negative : d < 0
  · have wrapped : d % 256 ^ width = d + 256 ^ width := by
      rw [← Int.add_emod_right, Int.emod_eq_of_lt (by omega) (by omega)]
    rw [wrapped, if_neg (by omega), if_neg (by omega)]
    congr 1
    omega
  · have kept : d % 256 ^ width = d := Int.emod_eq_of_lt (by omega) (by omega)
    rw [kept, if_pos (by omega), if_pos (by omega)]

theorem packInt_encodes {d : Int} (lower : -2 ^ 31 ≤ d) (upper : d < 2 ^ 31) :
    Encodes (packInt d) (integerObject d) := by
  -- Headers 0xd0 to 0xd2 hold signed numbers, the others unsigned ones.
  have signed (header : UInt8) (width : Nat)
      (token : ∀ bytes, readToken header bytes =
        fixedTrail bytes width fun trail => .value (signedInteger trail) (1 + width))
      (least : -(256 ^ width : Int) ≤ 2 * d) (most : 2 * d < 256 ^ width) :
      Encodes (header :: storeSigned width d) (integerObject d) := by
    apply Encodes.of_value
    intro rest
    simp [token, fixedTrail, signedInteger_storeSigned least most]
  have unsigned (header : UInt8) (width : Nat)
      (token : ∀ bytes, readToken header bytes =
        fixedTrail bytes width fun trail => .value (.positiveInteger (loadBE trail)) (1 + width))
      (least : 0 ≤ d) (most : d < (256 ^ width : Nat)) :
      Encodes (header :: storeSigned width d) (integerObject d) := by
    apply Encodes.of_value
    intro rest
    have kept : (d % 256 ^ width).toNat = d.toNat := by
      rw [Int.emod_eq_of_lt least (by simpa using most)]
    have read : loadBE (storeBE width d.toNat) = d.toNat := loadBE_storeBE (by omega)
    simp [token, fixedTrail, storeSigned, kept, read, integerObject, least]
  have byte (least : -2 ^ 5 ≤ d) (most : d < 2 ^ 7) : Encodes (storeSigned 1 d) (integerObject d) := by
    have header : storeSigned 1 d = [UInt8.ofNat (d % 256).toNat] := by simp [storeSigned, storeBE]
    have read : (UInt8.ofNat (d % 256).toNat).toNat = (d % 256).toNat := by
      simp only [UInt8.toNat_ofNat', Nat.reducePow]
      omega
    rw [header]
    apply Encodes.of_value
    intro rest
    simp only [readToken, read, integerObject]
    by_cases negative : d < 0
    · rw [if_neg (by omega), if_pos (by omega), if_neg (by omega)]
      congr 2
      omega
    · rw [if_pos (by omega), if_pos (by omega)]
      congr 2
      omega
  rw [packInt]
  split
  · split
    · exact signed 0xd2 4 (fun _ => rfl) (by omega) (by omega)
    · split
      · exact signed 0xd1 2 (fun _ => rfl) (by omega) (by omega)
      · exact signed 0xd0 1 (fun _ => rfl) (by omega) (by omega)
  · split
    · exact byte (by omega) (by omega)
    · split
      · exact unsigned 0xcc 1 (fun _ => rfl) (by omega) (by omega)
      · split
        · exact unsigned 0xcd 2 (fun _ => rfl) (by omega) (by omega)
        · exact unsigned 0xce 4 (fun _ => rfl) (by omega) (by omega)

theorem packInt_length (d : Int) : (packInt d).length ≤ 5 := by
  rw [packInt]
  split_ifs <;> simp [storeSigned]

theorem packRaw_length (l : Nat) : (packRaw l).length ≤ 5 := by
  rw [packRaw]
  split_ifs <;> simp

theorem packUint64_length (d : Nat) : (packUint64 d).length ≤ 9 := by
  rw [packUint64_eq_encode, UintForm.encode_length]
  exact UintForm.size_le _

theorem packUint64_length_pos (d : Nat) : 1 ≤ (packUint64 d).length := by
  rw [packUint64_eq_encode, UintForm.encode_length]
  exact UintForm.size_pos _

theorem packUint64_length_one_iff (d : Nat) : (packUint64 d).length = 1 ↔ d < 128 := by
  rw [packUint64]
  split_ifs <;> simp <;> omega

theorem packRaw_length_pos (l : Nat) : 1 ≤ (packRaw l).length := by
  rw [packRaw]
  split_ifs <;> simp

theorem packRaw_encodes (bytes : List UInt8) (bounded : bytes.length < 2 ^ 32) :
    Encodes (packRaw bytes.length ++ packRawBody bytes) (.raw bytes) := by
  have wide (header : UInt8) (width : Nat) (fits : bytes.length < 256 ^ width)
      (token : ∀ rest, readToken header rest =
        fixedTrail rest width fun trail => rawValue rest width (loadBE trail)) :
      Encodes (header :: storeBE width bytes.length ++ bytes) (.raw bytes) := by
    rw [List.cons_append]
    apply Encodes.of_value
    intro rest
    have read : loadBE (storeBE width bytes.length) = bytes.length := loadBE_storeBE fits
    simp only [token, fixedTrail, rawValue, List.append_assoc, List.length_append, storeBE_length,
      List.take_left' (storeBE_length _ _), List.drop_left' (storeBE_length _ _), read, List.take_left]
    rw [if_neg (by omega), if_neg (by omega), Nat.add_assoc]
  rw [packRaw, packRawBody]
  split
  · rw [List.singleton_append]
    apply Encodes.of_value
    intro rest
    have header : ∀ l < 32, (0xa0 ||| UInt8.ofNat l).toNat = 0xa0 + l ∧ (0xa0 + l) &&& 0x1f = l := by decide
    obtain ⟨byte, length⟩ := header bytes.length (by assumption)
    simp only [readToken, byte, length, rawValue, List.drop_zero, List.length_append, List.take_left]
    rw [if_neg (by omega), if_neg (by omega), if_neg (by omega), if_pos (by omega), if_neg (by omega)]
  · split
    · exact wide 0xda 2 (by omega) (fun _ => rfl)
    · exact wide 0xdb 4 (by omega) (fun _ => rfl)

end Webapp.MsgPack

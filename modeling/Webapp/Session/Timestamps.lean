import Webapp.Session.Sessions

namespace Webapp.Session

open Webapp.Data

/-! The time of a session through its record: a 32-bit number as decimal text, and
`strntol` back.
-/

theorem digit_isDigit {value : Nat} (bound : value < 10) : isDigit (UInt8.ofNat (0x30 + value)) = true := by
  have table : ∀ value : Fin 10, isDigit (UInt8.ofNat (0x30 + value)) = true := by decide
  exact table ⟨value, bound⟩

theorem digit_digitValue {value : Nat} (bound : value < 10) : digitValue (UInt8.ofNat (0x30 + value)) = value := by
  have table : ∀ value : Fin 10, digitValue (UInt8.ofNat (0x30 + value)) = value := by decide
  exact table ⟨value, bound⟩

theorem decimalDigits_isDigit (fuel value : Nat) : ∀ byte ∈ decimalDigits fuel value, isDigit byte = true := by
  induction fuel generalizing value with
  | zero => simp [decimalDigits]
  | succ fuel ih =>
      intro byte member
      rw [decimalDigits] at member
      split at member
      · rename_i small
        obtain rfl := List.mem_singleton.mp member
        exact digit_isDigit small
      · rcases List.mem_append.mp member with front | last
        · exact ih (value / 10) byte front
        · obtain rfl := List.mem_singleton.mp last
          exact digit_isDigit (Nat.mod_lt value (by decide))

theorem strntolDigits_digit (x : Int) {value : Nat} (bound : value < 10) (rest : List UInt8) :
    strntolDigits x (UInt8.ofNat (0x30 + value) :: rest) = strntolDigits (int32 (x * 10 + value)) rest := by
  rw [strntolDigits, digit_isDigit bound, if_pos rfl, digit_digitValue bound]

/-- The loop reads a printed number modulo `2 ^ 32`, whatever follows. -/
theorem strntolDigits_decimalDigits {fuel value : Nat} (bound : value < 10 ^ fuel) (rest : List UInt8) :
    strntolDigits 0 (decimalDigits fuel value ++ rest) = strntolDigits (int32 value) rest := by
  induction fuel generalizing value rest with
  | zero =>
      have zero : value = 0 := by simpa using bound
      rw [zero]
      rfl
  | succ fuel ih =>
      rw [decimalDigits]
      split
      · rename_i small
        rw [List.singleton_append, strntolDigits_digit 0 small, Int.zero_mul, Int.zero_add]
      · have shorter : value / 10 < 10 ^ fuel := by
          rw [Nat.pow_succ] at bound
          omega
        have last : value % 10 < 10 := Nat.mod_lt value (by decide)
        have carried : int32 (int32 ((value / 10 : Nat) : Int) * 10 + ((value % 10 : Nat) : Int)) = int32 value := by
          simp only [int32]
          omega
        rw [List.append_assoc, ih shorter, List.singleton_append, strntolDigits_digit _ last, carried]

theorem decimalDigits_head (fuel value : Nat) (rest : List UInt8) :
    (decimalDigits (fuel + 1) value ++ rest).head? ≠ some 0x2d := by
  have printed : decimalDigits (fuel + 1) value ≠ [] := by
    rw [decimalDigits]
    split <;> simp
  obtain ⟨first, more, shape⟩ := List.exists_cons_of_ne_nil printed
  have digit : isDigit first = true := decimalDigits_isDigit (fuel + 1) value first (by simp [shape])
  intro signed
  rw [shape, List.cons_append, List.head?_cons, Option.some.injEq] at signed
  rw [signed] at digit
  exact absurd digit (by decide)

theorem strntol_unsigned {text : List UInt8} (unsigned : text.head? ≠ some 0x2d) :
    strntol text = strntolDigits 0 text := by
  rw [strntol]
  intro src signed
  exact unsigned (by rw [signed, List.head?_cons])

theorem strntolDigits_stops {rest : List UInt8} (stops : ∀ byte ∈ rest.head?, isDigit byte = false) (x : Int) :
    strntolDigits x rest = x := by
  cases rest with
  | nil => rfl
  | cons byte rest =>
      rw [strntolDigits, stops byte rfl]
      rfl

/-- A number is read back from its text up to the first byte that is no digit.
The smallest one leaves the range twice and comes back. -/
theorem strntol_fromNumber {num : Int} (lower : -2147483648 ≤ num) (upper : num < 2147483648) {rest : List UInt8}
    (stops : ∀ byte ∈ rest.head?, isDigit byte = false) : strntol (fromNumber num ++ rest) = num := by
  have short : num.natAbs < 10 ^ 10 := by omega
  have read : strntolDigits 0 (decimalDigits 10 num.natAbs ++ rest) = int32 num.natAbs := by
    rw [strntolDigits_decimalDigits short, strntolDigits_stops stops]
  rw [fromNumber]
  split
  · rename_i negative
    have sign : ((num.natAbs : Nat) : Int) * -1 = num := by omega
    rw [List.cons_append, strntol, read, int32_mul_right, sign, int32_of_range lower upper]
  · rename_i nonnegative
    have same : ((num.natAbs : Nat) : Int) = num := Int.natAbs_of_nonneg (Int.not_lt.mp nonnegative)
    rw [strntol_unsigned (decimalDigits_head 9 _ rest), read, same, int32_of_range lower upper]

theorem strntolDigits_range {x : Int} (lower : -2147483648 ≤ x) (upper : x < 2147483648) (text : List UInt8) :
    -2147483648 ≤ strntolDigits x text ∧ strntolDigits x text < 2147483648 := by
  induction text generalizing x with
  | nil => exact ⟨lower, upper⟩
  | cons byte text ih =>
      rw [strntolDigits]
      split
      · exact ih (int32_range _).1 (int32_range _).2
      · exact ⟨lower, upper⟩

/-- No text at all stands for a time behind the 32-bit range. -/
theorem strntol_lt (text : List UInt8) : strntol text < 2147483648 := by
  rw [strntol.eq_def]
  split
  · exact (int32_range _).2
  · exact (strntolDigits_range (by decide) (by decide) _).2

/-- The products and sums of the digit loop as they are before they are wrapped. -/
def digitsComputed : Int → List UInt8 → List Int
  | _, [] => []
  | x, byte :: src =>
      if isDigit byte then
        x * 10 :: (x * 10 + digitValue byte) :: digitsComputed (int32 (x * 10 + digitValue byte)) src
      else []

/-- All of a call of `strntol`: the sign, the loop and the last product. -/
def strntolComputed (src : List UInt8) : List Int :=
  match src with
  | 0x2d :: src => 1 * -1 :: (digitsComputed 0 src ++ [strntolDigits 0 src * -1])
  | src => digitsComputed 0 src ++ [strntolDigits 0 src * 1]

theorem strntolComputed_unsigned {text : List UInt8} (unsigned : text.head? ≠ some 0x2d) :
    strntolComputed text = digitsComputed 0 text ++ [strntolDigits 0 text * 1] := by
  rw [strntolComputed]
  intro src signed
  exact unsigned (by rw [signed, List.head?_cons])

theorem strntol_eq_computed (text : List UInt8) :
    ∃ value, (strntolComputed text).getLast? = some value ∧ strntol text = int32 value := by
  by_cases signed : text.head? = some 0x2d
  · obtain ⟨src, rfl⟩ := List.head?_eq_some_iff.mp signed
    refine ⟨strntolDigits 0 src * -1, ?_, rfl⟩
    rw [strntolComputed, ← List.cons_append, List.getLast?_concat]
  · refine ⟨strntolDigits 0 text * 1, ?_, ?_⟩
    · rw [strntolComputed_unsigned signed, List.getLast?_concat]
    · have range := strntolDigits_range (show -2147483648 ≤ (0 : Int) by decide) (by decide) text
      rw [strntol_unsigned signed, Int.mul_one, int32_of_range range.1 range.2]

theorem digitsComputed_digit {x value : Nat} (bound : value < 10) (small : x * 10 + value < 2147483648)
    (rest : List UInt8) :
    ∀ computed ∈ digitsComputed x (UInt8.ofNat (0x30 + value) :: rest),
      (0 ≤ computed ∧ computed ≤ (x * 10 + value : Nat)) ∨
        computed ∈ digitsComputed (x * 10 + value : Nat) rest := by
  intro computed member
  have sum : (x : Int) * 10 + value = (x * 10 + value : Nat) := by omega
  rw [digitsComputed, digit_isDigit bound, if_pos rfl, digit_digitValue bound, sum, int32_of_small small] at member
  rcases List.mem_cons.mp member with product | later
  · omega
  · rcases List.mem_cons.mp later with whole | after
    · omega
    · exact Or.inr after

theorem digitsComputed_stops {rest : List UInt8} (stops : ∀ byte ∈ rest.head?, isDigit byte = false) (x : Int) :
    digitsComputed x rest = [] := by
  cases rest with
  | nil => rfl
  | cons byte rest =>
      rw [digitsComputed, stops byte rfl]
      rfl

/-- Reading a printed number computes nothing above the number itself. -/
theorem digitsComputed_decimalDigits {fuel value : Nat} (bound : value < 10 ^ fuel) (small : value < 2147483648)
    (rest : List UInt8) :
    ∀ computed ∈ digitsComputed 0 (decimalDigits fuel value ++ rest),
      (0 ≤ computed ∧ computed ≤ value) ∨ computed ∈ digitsComputed value rest := by
  induction fuel generalizing value rest with
  | zero =>
      intro computed member
      have zero : value = 0 := by simpa using bound
      rw [zero]
      exact Or.inr member
  | succ fuel ih =>
      intro computed member
      rw [decimalDigits] at member
      split at member
      · rename_i digit
        have alone := digitsComputed_digit (x := 0) digit (by omega) rest computed member
        rwa [Nat.zero_mul, Nat.zero_add] at alone
      · have shorter : value / 10 < 10 ^ fuel := by
          rw [Nat.pow_succ] at bound
          omega
        have last : value % 10 < 10 := Nat.mod_lt value (by decide)
        have carried : value / 10 * 10 + value % 10 = value := Nat.div_add_mod' value 10
        rw [List.append_assoc, List.singleton_append] at member
        rcases ih shorter (by omega) _ computed member with front | member
        · omega
        · have ends := digitsComputed_digit last (by omega) rest computed member
          rwa [carried] at ends

/-- Only the smallest number makes the reading of its text overflow. -/
theorem strntolComputed_fromNumber {num : Int} (lower : -2147483648 < num) (upper : num < 2147483648)
    {rest : List UInt8} (stops : ∀ byte ∈ rest.head?, isDigit byte = false) :
    ∀ computed ∈ strntolComputed (fromNumber num ++ rest), -2147483648 ≤ computed ∧ computed < 2147483648 := by
  have short : num.natAbs < 10 ^ 10 := by omega
  have small : num.natAbs < 2147483648 := by omega
  have read : strntolDigits 0 (decimalDigits 10 num.natAbs ++ rest) = num.natAbs := by
    rw [strntolDigits_decimalDigits short, strntolDigits_stops stops, int32_of_small small]
  have loop : ∀ computed ∈ digitsComputed 0 (decimalDigits 10 num.natAbs ++ rest),
      -2147483648 ≤ computed ∧ computed < 2147483648 := by
    intro computed member
    rcases digitsComputed_decimalDigits short small rest computed member with between | after
    · omega
    · rw [digitsComputed_stops stops] at after
      contradiction
  intro computed member
  rw [fromNumber] at member
  split at member
  · rw [List.cons_append, strntolComputed, read] at member
    rcases List.mem_cons.mp member with sign | later
    · omega
    · rcases List.mem_append.mp later with digits | result
      · exact loop computed digits
      · rw [List.mem_singleton] at result
        omega
  · rw [strntolComputed_unsigned (decimalDigits_head 9 _ rest), read] at member
    rcases List.mem_append.mp member with digits | result
    · exact loop computed digits
    · rw [List.mem_singleton] at result
      omega

/-- A number survives its text, whatever follows that is not a digit, and only
the smallest one by way of an overflow. -/
theorem number_text_roundTrip {num : Int} (lower : -2147483648 ≤ num) (upper : num ≤ 2147483647)
    {rest : List UInt8} (stops : ∀ byte ∈ rest.head?, isDigit byte = false) :
    strntol (fromNumber num ++ rest) = num ∧
      (num ≠ -2147483648 → ∀ computed ∈ strntolComputed (fromNumber num ++ rest),
        -2147483648 ≤ computed ∧ computed ≤ 2147483647) := by
  refine ⟨strntol_fromNumber lower (by omega) stops, ?_⟩
  intro other computed member
  have range := strntolComputed_fromNumber (by omega) (by omega) stops computed member
  omega

/-- The number `-2147483647`, with `-1` behind it. -/
theorem number_text_roundTrip_least :
    strntol (fromNumber (-2147483647) ++ [0x2d, 0x31]) = -2147483647 ∧
      ((-2147483647 : Int) ≠ -2147483648 → ∀ computed ∈ strntolComputed (fromNumber (-2147483647) ++ [0x2d, 0x31]),
        -2147483648 ≤ computed ∧ computed ≤ 2147483647) :=
  number_text_roundTrip (by decide) (by decide) (by simp [isDigit])

example : 2147483648 ∈ strntolComputed (fromNumber (-2147483648)) := by decide

theorem construct_record (db : Db) {id : List UInt8} (named : id ≠ []) (now : Int) :
    (construct db id now)[sessionKey id]? = some (fromNumber (int32 now)) := by
  rw [construct, if_pos (List.length_pos_iff.mpr named), DataStore.getElem?_put, if_pos rfl]

/-- The record of a session gives back the time it was written at exactly up to
the end of the 32-bit range. -/
theorem construct_time_iff (db : Db) {id : List UInt8} (named : id ≠ []) {now : Int} (afterEpoch : 0 ≤ now) :
    (∃ record, (construct db id now)[sessionKey id]? = some record ∧ strntol record = now ∧
      ∀ later, now ≤ later → timeDifference later record = later - now) ↔ now < 2147483648 := by
  constructor
  · intro survives
    obtain ⟨record, _, read, _⟩ := survives
    rw [← read]
    exact strntol_lt record
  · intro bound
    have exact32 : int32 now = now := int32_of_range (by omega) bound
    have read : strntol (fromNumber now) = now := by
      have alone : strntol (fromNumber now ++ []) = now := strntol_fromNumber (by omega) bound (by simp)
      rwa [List.append_nil] at alone
    refine ⟨fromNumber now, ?_, read, ?_⟩
    · rw [construct_record db named, exact32]
    · intro later _
      rw [timeDifference, read]

/-- The last second of the range. -/
theorem construct_time_last :
    ∃ record, (construct ∅ [0x41] 2147483647)[sessionKey [0x41]]? = some record ∧ strntol record = 2147483647 ∧
      ∀ later, 2147483647 ≤ later → timeDifference later record = later - 2147483647 :=
  (construct_time_iff ∅ (by decide) (by decide)).mpr (by decide)

/-- One second later the record is negative, and the new session is 136 years old. -/
theorem construct_time_wraps :
    ∃ record, (construct ∅ [0x41] 2147483648)[sessionKey [0x41]]? = some record ∧
      strntol record = -2147483648 ∧ timeDifference 2147483648 record = 4294967296 := by
  refine ⟨fromNumber (int32 2147483648), construct_record ∅ (by decide) _, ?_, ?_⟩
  · decide
  · decide

end Webapp.Session

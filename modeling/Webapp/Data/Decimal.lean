import Mathlib
import Webapp.Data.Words

namespace Webapp.Data

/-! Decimal text. -/

def isDigit (byte : UInt8) : Bool := 0x30 ≤ byte && byte ≤ 0x39

def digitValue (byte : UInt8) : Nat := byte.toNat - 0x30

def decimal (digits : List UInt8) : Nat :=
  digits.foldl (fun value byte => value * 10 + digitValue byte) 0

/-- `isspace` in the C locale. -/
def isSpace (byte : UInt8) : Bool := byte = 0x20 || (0x09 ≤ byte && byte ≤ 0x0d)

/-- `strtol` with base 10, which stops at `LONG_MAX` and `LONG_MIN`. -/
def strtol (text : List UInt8) : Int :=
  match text.dropWhile isSpace with
  | 0x2d :: rest => max (-(decimal (rest.takeWhile isDigit) : Int)) (-9223372036854775808)
  | 0x2b :: rest => min (decimal (rest.takeWhile isDigit) : Int) 9223372036854775807
  | rest => min (decimal (rest.takeWhile isDigit) : Int) 9223372036854775807

/-- `atoi`, which is `(int) strtol(text, NULL, 10)`. -/
def atoi (text : List UInt8) : Int := int32 (strtol text)

theorem strtol_digits {text : List UInt8} (digits : ∀ byte ∈ text, isDigit byte = true) :
    strtol text = min (decimal text : Int) 9223372036854775807 := by
  cases text with
  | nil => rfl
  | cons first rest =>
      have taken : (first :: rest).takeWhile isDigit = first :: rest :=
        List.takeWhile_eq_self_iff.mpr digits
      have range : isDigit first = true := digits first (by simp)
      have bounds : 0x30 ≤ first.toNat ∧ first.toNat ≤ 0x39 := by
        simpa [isDigit, UInt8.le_iff_toNat_le] using range
      have kept : (first :: rest).dropWhile isSpace = first :: rest := by
        apply List.dropWhile_cons_of_neg
        simp only [isSpace, Bool.or_eq_true, Bool.and_eq_true, decide_eq_true_eq, UInt8.le_iff_toNat_le,
          ← UInt8.toNat_inj, UInt8.reduceToNat]
        omega
      have notMinus : first ≠ 0x2d := by rintro rfl; simp at bounds
      have notPlus : first ≠ 0x2b := by rintro rfl; simp at bounds
      rw [strtol]
      rw [kept]
      split
      · rename_i same
        exact absurd (List.cons.inj same).1 notMinus
      · rename_i same
        exact absurd (List.cons.inj same).1 notPlus
      · rw [taken]

end Webapp.Data

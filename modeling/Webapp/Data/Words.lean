import Mathlib

namespace Webapp.Data

/-! Conversions between the machine integers of the sources.  Values are
mathematical integers; only the conversions reduce them, so a place where no
conversion stands is a place where the code cannot wrap.
-/

/-- Conversion to `int32_t`, two's complement. -/
def int32 (value : Int) : Int := (value + 2147483648) % 4294967296 - 2147483648

/-- Conversion to `int64_t` (`off_t`, `time_t`, `long`), two's complement. -/
def int64 (value : Int) : Int :=
  (value + 9223372036854775808) % 18446744073709551616 - 9223372036854775808

def int16 (value : Int) : Int := (value + 32768) % 65536 - 32768

/-- Conversion to a 64-bit `size_t`. -/
def sizeT (value : Int) : Nat := (value % 18446744073709551616).toNat

def uint16 (value : Int) : Nat := (value % 65536).toNat

def uint32 (value : Int) : Nat := (value % 4294967296).toNat

def uint8 (value : Int) : Nat := (value % 256).toNat

theorem int32_range (value : Int) : -2147483648 ≤ int32 value ∧ int32 value < 2147483648 := by
  simp only [int32]
  omega

theorem int32_of_range {value : Int} (lower : -2147483648 ≤ value) (upper : value < 2147483648) :
    int32 value = value := by
  simp only [int32]
  omega

theorem int32_eq_iff (value : Nat) : int32 value = value ↔ value < 2147483648 := by
  simp only [int32]
  omega

theorem int32_of_small {value : Nat} (small : value < 2147483648) : int32 value = value :=
  (int32_eq_iff value).mpr small

theorem int32_modEq (value : Int) : int32 value ≡ value [ZMOD 4294967296] := by
  simp only [int32, Int.ModEq]
  omega

theorem int32_congr {first second : Int} (same : first ≡ second [ZMOD 4294967296]) :
    int32 first = int32 second := by
  simp only [int32, Int.ModEq] at same ⊢
  omega

/-- Operands that were wrapped give the wrapped product. -/
theorem int32_mul (first second : Int) : int32 (int32 first * int32 second) = int32 (first * second) :=
  int32_congr ((int32_modEq first).mul (int32_modEq second))

theorem int32_mul_right (first second : Int) : int32 (int32 first * second) = int32 (first * second) :=
  int32_congr ((int32_modEq first).mul_right second)

theorem int32_add_right (first second : Int) : int32 (int32 first + second) = int32 (first + second) :=
  int32_congr ((int32_modEq first).add_right second)

theorem le_int32_iff (value : Int) : value ≤ int32 value ↔ value < 2147483648 := by
  simp only [int32]
  omega

theorem int16_of_range {value : Int} (lower : -32768 ≤ value) (upper : value < 32768) : int16 value = value := by
  simp only [int16]
  omega

theorem sizeT_lt (value : Int) : sizeT value < 18446744073709551616 := by
  simp only [sizeT]
  omega

theorem uint16_add {first second : Nat} (small : first + second < 65536) :
    uint16 (first + second) = first + second := by
  simp only [uint16]
  omega

theorem uint16_sub {first second : Nat} (ordered : second ≤ first) (small : first < 65536) :
    uint16 (first - second) = first - second := by
  simp only [uint16]
  omega

theorem uint16_of_small {value : Nat} (small : value < 65536) : uint16 value = value := by
  simp only [uint16]
  omega

theorem uint32_eq_iff (value : Nat) : uint32 value = value ↔ value < 4294967296 := by
  simp only [uint32]
  omega

theorem uint32_mul_left (first second : Int) : uint32 (first * uint32 second) = uint32 (first * second) := by
  have wrapped : ((uint32 second : Nat) : Int) = second % 4294967296 := by
    simp only [uint32]
    omega
  rw [wrapped, uint32, uint32, ((Int.mod_modEq second 4294967296).mul_left first).eq]

theorem uint8_eq_iff (value : Nat) : uint8 value = value ↔ value < 256 := by
  simp only [uint8]
  omega

theorem uint16_lt (value : Int) : uint16 value < 65536 := by
  simp only [uint16]
  omega

theorem uint16_add_le (first second : Nat) : uint16 (first + second) ≤ first + second := by
  simp only [uint16]
  omega

end Webapp.Data

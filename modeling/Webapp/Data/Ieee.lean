import Mathlib

namespace Webapp.Data

/-! Numbers of the formats binary32 and binary64 of IEEE 754, as the naturals that
their bits spell. -/

/-- The magnitude that an exponent and a fraction of some width stand for, as a multiple
of the least positive number of the format. -/
def magnitude (width exponent fraction : Nat) : Nat :=
  if exponent = 0 then fraction else (2 ^ width + fraction) * 2 ^ (exponent - 1)

/-- Exponent and fraction of a binary32 number in binary64.  Infinity stays, a NaN
becomes a quiet one, and what is subnormal in the narrow format is normal in the wide
one. -/
def widenMagnitude (exponent fraction : Nat) : Nat × Nat :=
  if exponent = 255 then (2047, if fraction = 0 then 0 else (fraction ||| 2 ^ 22) * 2 ^ 29)
  else if exponent ≠ 0 then (exponent + 896, fraction * 2 ^ 29)
  else if fraction = 0 then (0, 0)
  else (fraction.log2 + 874, (fraction - 2 ^ fraction.log2) * 2 ^ (52 - fraction.log2))

/-- The bits of a binary32 number, widened to those of a binary64 number. -/
def widenBits (bits : Nat) : Nat :=
  let wide := widenMagnitude (bits / 2 ^ 23 % 2 ^ 8) (bits % 2 ^ 23)
  bits / 2 ^ 31 * 2 ^ 63 + wide.1 * 2 ^ 52 + wide.2

variable {exponent fraction bits : Nat}

theorem log2_lt_of_fraction (some : fraction ≠ 0) (small : fraction < 2 ^ 23) : fraction.log2 < 23 :=
  (Nat.log2_lt some).mpr small

/-- What is behind the leading bit of a fraction, moved to the front. -/
theorem leading_lt (some : fraction ≠ 0) (small : fraction < 2 ^ 23) :
    (fraction - 2 ^ fraction.log2) * 2 ^ (52 - fraction.log2) < 2 ^ 52 := by
  have place := log2_lt_of_fraction some small
  have least := Nat.log2_self_le some
  have most : fraction < 2 ^ (fraction.log2 + 1) := Nat.lt_log2_self
  rw [Nat.pow_succ] at most
  calc (fraction - 2 ^ fraction.log2) * 2 ^ (52 - fraction.log2)
      < 2 ^ fraction.log2 * 2 ^ (52 - fraction.log2) :=
        Nat.mul_lt_mul_of_pos_right (by omega) (Nat.two_pow_pos _)
    _ = 2 ^ 52 := by rw [← Nat.pow_add, Nat.add_sub_cancel' (by omega)]

/-- The parts of the wide number fit their fields. -/
theorem widenMagnitude_lt (byte : exponent < 2 ^ 8) (small : fraction < 2 ^ 23) :
    (widenMagnitude exponent fraction).1 < 2 ^ 11 ∧ (widenMagnitude exponent fraction).2 < 2 ^ 52 := by
  rw [widenMagnitude]
  split
  · have quiet : fraction ||| 2 ^ 22 < 2 ^ 23 := Nat.or_lt_two_pow small (by decide)
    refine ⟨Nat.lt_succ_self 2047, ?_⟩
    split <;> omega
  · split
    · exact ⟨by omega, by omega⟩
    · split
      · exact ⟨by decide, by decide⟩
      · rename_i some
        have place := log2_lt_of_fraction some small
        exact ⟨by omega, leading_lt some small⟩

/-- The least numbers of the two formats are 925 binary places apart. -/
theorem widenMagnitude_value (finite : exponent ≠ 255) (small : fraction < 2 ^ 23) :
    magnitude 52 (widenMagnitude exponent fraction).1 (widenMagnitude exponent fraction).2 =
      magnitude 23 exponent fraction * 2 ^ 925 := by
  -- A name for the distance keeps its power from being computed.
  obtain ⟨distance, apart⟩ : ∃ distance, distance = 925 := ⟨925, rfl⟩
  rw [widenMagnitude, if_neg finite, ← apart]
  by_cases normal : exponent ≠ 0
  · have scaled : 2 ^ 52 + fraction * 2 ^ 29 = (2 ^ 23 + fraction) * 2 ^ 29 := by omega
    have places : 29 + (exponent + 896 - 1) = exponent - 1 + distance := by omega
    rw [if_pos normal, magnitude, magnitude, if_neg (by omega), if_neg normal, scaled, Nat.mul_assoc, Nat.mul_assoc,
      ← Nat.pow_add, ← Nat.pow_add, places]
  · have zero : exponent = 0 := not_not.mp normal
    rw [if_neg normal, magnitude, magnitude, if_pos zero]
    by_cases none : fraction = 0
    · rw [none, if_pos rfl, if_pos rfl, Nat.zero_mul]
    · have place := log2_lt_of_fraction none small
      have least := Nat.log2_self_le none
      have leading : 2 ^ 52 = 2 ^ fraction.log2 * 2 ^ (52 - fraction.log2) := by
        rw [← Nat.pow_add, Nat.add_sub_cancel' (by omega)]
      have places : 52 - fraction.log2 + (fraction.log2 + 874 - 1) = distance := by omega
      rw [if_neg none, if_neg (by simp), leading, ← Nat.add_mul, Nat.add_sub_cancel' least, Nat.mul_assoc, ← Nat.pow_add,
        places]

/-- Widening keeps the sign and the value of a finite number. -/
theorem widenBits_value (word : bits < 2 ^ 32) (finite : bits / 2 ^ 23 % 2 ^ 8 ≠ 255) :
    widenBits bits < 2 ^ 64 ∧ widenBits bits / 2 ^ 63 = bits / 2 ^ 31 ∧
      magnitude 52 (widenBits bits / 2 ^ 52 % 2 ^ 11) (widenBits bits % 2 ^ 52) =
        magnitude 23 (bits / 2 ^ 23 % 2 ^ 8) (bits % 2 ^ 23) * 2 ^ 925 := by
  have byte : bits / 2 ^ 23 % 2 ^ 8 < 2 ^ 8 := Nat.mod_lt _ (by decide)
  have small : bits % 2 ^ 23 < 2 ^ 23 := Nat.mod_lt _ (by decide)
  rw [← widenMagnitude_value finite small, widenBits]
  obtain ⟨first, second⟩ := widenMagnitude_lt byte small
  generalize widenMagnitude (bits / 2 ^ 23 % 2 ^ 8) (bits % 2 ^ 23) = wide at first second ⊢
  have exponent : (bits / 2 ^ 31 * 2 ^ 63 + wide.1 * 2 ^ 52 + wide.2) / 2 ^ 52 % 2 ^ 11 = wide.1 := by omega
  have fraction : (bits / 2 ^ 31 * 2 ^ 63 + wide.1 * 2 ^ 52 + wide.2) % 2 ^ 52 = wide.2 := by omega
  exact ⟨by omega, by omega, by rw [exponent, fraction]⟩

end Webapp.Data

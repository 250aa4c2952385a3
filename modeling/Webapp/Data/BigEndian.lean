import Mathlib

namespace Webapp.Data

/-- The low `width` bytes of a number, most significant first. -/
def storeBE : Nat → Nat → List UInt8
  | 0, _ => []
  | width + 1, value => UInt8.ofNat (value / 256 ^ width) :: storeBE width value

def loadBE (bytes : List UInt8) : Nat :=
  bytes.foldl (fun value byte => value * 256 + byte.toNat) 0

@[simp] theorem storeBE_length (width value : Nat) : (storeBE width value).length = width := by
  induction width with
  | zero => rfl
  | succ width ih => simp [storeBE, ih]

private theorem foldl_storeBE (width value start : Nat) :
    (storeBE width value).foldl (fun value byte => value * 256 + byte.toNat) start =
      start * 256 ^ width + value % 256 ^ width := by
  induction width generalizing start with
  | zero => simp [storeBE, Nat.mod_one]
  | succ width ih =>
      simp only [storeBE, List.foldl_cons, ih, UInt8.toNat_ofNat', Nat.reducePow]
      have digits : value % 256 ^ (width + 1) =
          value / 256 ^ width % 256 * 256 ^ width + value % 256 ^ width := by
        rw [Nat.pow_succ, Nat.mod_mul, Nat.add_comm, Nat.mul_comm]
      rw [digits, Nat.pow_succ, Nat.add_mul, Nat.mul_assoc, Nat.mul_comm 256, Nat.add_assoc]

theorem loadBE_storeBE {width value : Nat} (fits : value < 256 ^ width) :
    loadBE (storeBE width value) = value := by
  rw [loadBE, foldl_storeBE, Nat.zero_mul, Nat.zero_add, Nat.mod_eq_of_lt fits]

theorem loadBE_lt (bytes : List UInt8) : loadBE bytes < 256 ^ bytes.length := by
  induction bytes using List.reverseRecOn with
  | nil => simp [loadBE]
  | append_singleton bytes byte ih =>
      have last := byte.toNat_lt
      simp only [loadBE, List.foldl_append, List.foldl_cons, List.foldl_nil, List.length_append, List.length_singleton]
      rw [← loadBE, Nat.pow_succ]
      omega

end Webapp.Data

import Mathlib.Algebra.Order.Ring.Int
import Mathlib.Data.UInt

/-!
# Lib.Sat

Saturating arithmetic on `UInt64`: `u64::saturating_add` and its siblings. Every fact is
stated on `toNat`, where `omega` finishes the work.
-/

namespace EgoBridge

/-- `u64::saturating_add`. -/
def satAdd (a b : UInt64) : UInt64 := UInt64.ofNat (min (a.toNat + b.toNat) (2 ^ 64 - 1))

/-- `u64::saturating_sub`. -/
def satSub (a b : UInt64) : UInt64 := UInt64.ofNat (a.toNat - b.toNat)

/-- `u64::saturating_mul`. -/
def satMul (a b : UInt64) : UInt64 := UInt64.ofNat (min (a.toNat * b.toNat) (2 ^ 64 - 1))

@[simp] theorem satAdd_toNat (a b : UInt64) :
    (satAdd a b).toNat = min (a.toNat + b.toNat) (2 ^ 64 - 1) := by
  simp only [satAdd, UInt64.toNat_ofNat']
  exact Nat.mod_eq_of_lt (by omega)

@[simp] theorem satSub_toNat (a b : UInt64) : (satSub a b).toNat = a.toNat - b.toNat := by
  have := a.toNat_lt
  simp only [satSub, UInt64.toNat_ofNat']
  exact Nat.mod_eq_of_lt (by omega)

@[simp] theorem min_toNat (a b : UInt64) : (min a b).toNat = min a.toNat b.toNat := by
  by_cases h : a ≤ b
  · rw [show min a b = a from if_pos h]
    rw [UInt64.le_iff_toNat_le] at h
    omega
  · rw [show min a b = b from if_neg h]
    rw [UInt64.le_iff_toNat_le] at h
    omega

theorem satAdd_mono_right {a b c : UInt64} (h : b ≤ c) : satAdd a b ≤ satAdd a c := by
  rw [UInt64.le_iff_toNat_le] at h ⊢
  simp only [satAdd_toNat]
  omega

end EgoBridge

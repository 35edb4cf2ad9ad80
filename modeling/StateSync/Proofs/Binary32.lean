import Mathlib.Algebra.Group.Nat.Defs
import StateSync.Binary32.Basic

/-! The order of the bits is the order of the numbers: of two magnitudes the larger has more units, so finite numbers
    compare as their multiples of the least positive one do (`le_iff`). -/

namespace StateSync
namespace Binary32
variable {x y : Binary32}

def exponent (x : Binary32) : Nat := x.magnitude / 0x800000

def fraction (x : Binary32) : Nat := x.magnitude % 0x800000

theorem magnitude_eq (x : Binary32) : x.magnitude = 0x800000 * x.exponent + x.fraction :=
  (Nat.div_add_mod _ _).symm

theorem fraction_lt (x : Binary32) : x.fraction < 0x800000 := Nat.mod_lt _ (by decide)

theorem units_of_exponent_eq_zero (h : x.exponent = 0) : x.units = x.fraction := if_pos h

theorem units_of_exponent_ne_zero (h : x.exponent ≠ 0) : x.units = (0x800000 + x.fraction) * 2 ^ (x.exponent - 1) := by
  rw [← Nat.shiftLeft_eq]
  exact if_neg h

/-- The units of one exponent stay below the least of the next. -/
theorem units_lt (x : Binary32) : x.units < 0x800000 * 2 ^ x.exponent := by
  have hfraction := x.fraction_lt
  by_cases h : x.exponent = 0
  · rw [units_of_exponent_eq_zero h, h]
    omega
  · have hdouble : 2 ^ x.exponent = 2 * 2 ^ (x.exponent - 1) := by
      rw [← Nat.pow_succ', Nat.succ_eq_add_one, Nat.sub_add_cancel (by omega)]
    rw [units_of_exponent_ne_zero h, hdouble, ← Nat.mul_assoc]
    exact Nat.mul_lt_mul_of_pos_right (by omega) (Nat.two_pow_pos _)

theorem le_units (h : x.exponent ≠ 0) : 0x800000 * 2 ^ (x.exponent - 1) ≤ x.units := by
  rw [units_of_exponent_ne_zero h]
  exact Nat.mul_le_mul_right _ (Nat.le_add_right _ _)

theorem units_lt_units (h : x.magnitude < y.magnitude) : x.units < y.units := by
  have hx := x.magnitude_eq
  have hy := y.magnitude_eq
  have hfraction := y.fraction_lt
  rcases Nat.lt_trichotomy x.exponent y.exponent with hlt | heq | hgt
  · calc x.units < 0x800000 * 2 ^ x.exponent := x.units_lt
      _ ≤ 0x800000 * 2 ^ (y.exponent - 1) := Nat.mul_le_mul_left _ (Nat.pow_le_pow_right (by decide) (by omega))
      _ ≤ y.units := le_units (by omega)
  · by_cases hzero : y.exponent = 0
    · rw [units_of_exponent_eq_zero hzero, units_of_exponent_eq_zero (heq.trans hzero)]
      omega
    · rw [units_of_exponent_ne_zero hzero, units_of_exponent_ne_zero (heq ▸ hzero), heq]
      exact Nat.mul_lt_mul_of_pos_right (by omega) (Nat.two_pow_pos _)
  · omega

theorem units_eq_of_magnitude_eq (h : x.magnitude = y.magnitude) : x.units = y.units := by
  rw [units, units, h]

theorem units_le_units_iff : x.units ≤ y.units ↔ x.magnitude ≤ y.magnitude := by
  constructor
  · intro h
    exact Nat.le_of_not_lt fun hlt => Nat.not_lt_of_le h (units_lt_units hlt)
  · intro h
    rcases Nat.lt_or_eq_of_le h with h | h
    · exact Nat.le_of_lt (units_lt_units h)
    · exact Nat.le_of_eq (units_eq_of_magnitude_eq h)

theorem units_eq_zero_iff : x.units = 0 ↔ x.magnitude = 0 := by
  have h : x.units ≤ (⟨0⟩ : Binary32).units ↔ x.magnitude ≤ (⟨0⟩ : Binary32).magnitude := units_le_units_iff
  exact Nat.le_zero.symm.trans (h.trans Nat.le_zero)

/-- Both signs turn the order of the sizes as they turn that of the places. -/
theorem place_le_place_iff : x.place ≤ y.place ↔ x.signedUnits ≤ y.signedUnits := by
  have hxy : x.units ≤ y.units ↔ x.magnitude ≤ y.magnitude := units_le_units_iff
  have hyx : y.units ≤ x.units ↔ y.magnitude ≤ x.magnitude := units_le_units_iff
  have hx : x.units = 0 ↔ x.magnitude = 0 := units_eq_zero_iff
  have hy : y.units = 0 ↔ y.magnitude = 0 := units_eq_zero_iff
  unfold place signedUnits
  cases x.isNegative <;> cases y.isNegative <;> simp only [Bool.false_eq_true, if_true, if_false] <;> omega

/-- One number is at most another if both are numbers and it has no more units. -/
theorem le_iff : x.le y = true ↔ x.isNaN = false ∧ y.isNaN = false ∧ x.signedUnits ≤ y.signedUnits := by
  simp only [le, Bool.and_eq_true, Bool.not_eq_true', decide_eq_true_eq, place_le_place_iff, and_assoc]

theorem isInfinite_eq_false (h : x.signedUnits.natAbs < (infinity false).units) : x.isInfinite = false := by
  refine decide_eq_false fun hmagnitude => ?_
  have hunits : x.units = (infinity false).units := units_eq_of_magnitude_eq hmagnitude
  unfold signedUnits at h
  split at h <;> omega

end Binary32
end StateSync

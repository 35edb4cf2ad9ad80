import StateSync.Proofs.Binary32

/-! How far rounding goes. What is rounded keeps 24 places (`roundedMagnitude_eq`), so the result is above the exact value
    by no more than a part in 2²⁴ of it, or half of the least positive number (`units_ofUnits_le`). -/

namespace StateSync
namespace Binary32
variable {x y : Binary32} {n d m shift places : Nat}

/-! ### The nearest whole number -/

theorem le_nearest (n d : Nat) : n / d ≤ nearest n d := by
  unfold nearest
  dsimp only
  split <;> omega

theorem nearest_le_succ (n d : Nat) : nearest n d ≤ n / d + 1 := by
  unfold nearest
  dsimp only
  split <;> omega

theorem nearest_le (n d : Nat) : 2 * (d * nearest n d) ≤ 2 * n + d := by
  have hsplit := Nat.div_add_mod n d
  unfold nearest
  dsimp only
  split
  · omega
  · rw [Nat.mul_succ]
    omega

/-! ### Finite sizes -/

/-- A finite number that is not negative. -/
structure IsSize (x : Binary32) : Prop where
  nonneg : x.isNegative = false
  finite : x.magnitude < infiniteMagnitude

theorem IsSize.isNaN (h : x.IsSize) : x.isNaN = false := decide_eq_false (Nat.not_lt_of_lt h.finite)

theorem IsSize.isInfinite (h : x.IsSize) : x.isInfinite = false := decide_eq_false (Nat.ne_of_lt h.finite)

theorem toNat_bits_ofMagnitude (h : m < 0x80000000) : (ofMagnitude false m).bits.toNat = m := by
  rw [ofMagnitude, if_neg (by decide)]
  exact UInt32.toNat_ofNat_of_lt' (Nat.lt_trans h (by decide))

theorem magnitude_ofMagnitude (h : m < 0x80000000) : (ofMagnitude false m).magnitude = m := by
  rw [magnitude, toNat_bits_ofMagnitude h, Nat.mod_eq_of_lt h]

theorem isSize_ofMagnitude (h : m < infiniteMagnitude) : (ofMagnitude false m).IsSize := by
  have hword : m < 0x80000000 := Nat.lt_trans h (by decide)
  refine ⟨decide_eq_false (UInt32.not_le.mpr (UInt32.lt_iff_toNat_lt.mpr ?_)), ?_⟩
  · rw [toNat_bits_ofMagnitude hword]
    exact hword
  · rw [magnitude_ofMagnitude hword]
    exact h

/-- A magnitude of 24 places and the number of those that follow, where a carry out of the 24 may stand. -/
theorem units_of_magnitude (h : x.magnitude = shift * 0x800000 + places) (hplaces : places ≤ 0x1000000)
    (hshift : shift = 0 ∨ 0x800000 ≤ places) : x.units = places * 2 ^ shift := by
  have hmagnitude := x.magnitude_eq
  have hfraction := x.fraction_lt
  by_cases hsmall : places < 0x800000
  · have hzero : x.exponent = 0 := by omega
    rw [units_of_exponent_eq_zero hzero, hshift.resolve_right (Nat.not_le.mpr hsmall)]
    omega
  · by_cases hcarry : places = 0x1000000
    · have hexponent : x.exponent = shift + 2 := by omega
      have hnone : x.fraction = 0 := by omega
      rw [units_of_exponent_ne_zero (by omega), hexponent, hnone, hcarry]
      show 0x800000 * 2 ^ (shift + 1) = _
      omega
    · have hexponent : x.exponent = shift + 1 := by omega
      have hrest : 0x800000 + x.fraction = places := by omega
      rw [units_of_exponent_ne_zero (by omega), hexponent, hrest, Nat.add_sub_cancel]

/-! ### Rounding -/

/-- What is rounded keeps 24 places, of which the first is taken unless the number is small. -/
theorem roundedMagnitude_eq (hd : 0 < d) (h : n / d < 2 ^ 256) : ∃ shift places,
    roundedMagnitude n d = shift * 0x800000 + places ∧ places = nearest n (d * 2 ^ shift) ∧ places ≤ 0x1000000 ∧
      (shift = 0 ∨ 0x800000 ≤ places ∧ 0x800000 * (d * 2 ^ shift) ≤ n) ∧
      shift * 0x800000 + places < infiniteMagnitude := by
  obtain ⟨shift, hshift⟩ : ∃ s, Nat.log2 (n / d) - 23 = s := ⟨_, rfl⟩
  have hle := le_nearest n (d * 2 ^ shift)
  have hge := nearest_le_succ n (d * 2 ^ shift)
  have hlog : n / d < 2 ^ (shift + 24) :=
    Nat.lt_of_lt_of_le Nat.lt_log2_self (Nat.pow_le_pow_right (by decide) (by omega))
  have hquotient : n / (d * 2 ^ shift) < 0x1000000 := by
    rw [← Nat.div_div_eq_div_mul]
    refine (Nat.div_lt_iff_lt_mul (Nat.two_pow_pos _)).mpr ?_
    rwa [Nat.mul_comm, show (0x1000000 : Nat) = 2 ^ 24 from rfl, ← Nat.pow_add]
  -- With places left out, the quotient has as many bits as the kept ones and these together.
  have hlow : 0 < shift → 2 ^ (shift + 23) ≤ n / d := by
    intro hpos
    have hne : n / d ≠ 0 := fun heq => by
      rw [heq, Nat.log2_zero] at hshift
      omega
    rw [show shift + 23 = Nat.log2 (n / d) by omega]
    exact Nat.log2_self_le hne
  have hshort : shift ≤ 232 := by
    refine Nat.le_of_not_lt fun hlt => ?_
    have hpow : 2 ^ 256 ≤ 2 ^ (shift + 23) := Nat.pow_le_pow_right (by decide) (by omega)
    exact absurd (Nat.le_trans hpow (hlow (by omega))) (Nat.not_le.mpr h)
  have hfinite : shift * 0x800000 + nearest n (d * 2 ^ shift) < infiniteMagnitude := by
    unfold infiniteMagnitude
    omega
  refine ⟨shift, nearest n (d * 2 ^ shift), ?_, rfl, by omega, ?_, hfinite⟩
  · unfold roundedMagnitude
    dsimp only
    rw [hshift, Nat.shiftLeft_eq]
    exact Nat.min_eq_right (Nat.le_of_lt hfinite)
  · rcases Nat.eq_zero_or_pos shift with hzero | hpos
    · exact Or.inl hzero
    · have hfull : 0x800000 * (d * 2 ^ shift) ≤ n := by
        calc 0x800000 * (d * 2 ^ shift)
          _ = 2 ^ (shift + 23) * d := by rw [Nat.pow_add, Nat.mul_comm d, ← Nat.mul_assoc, Nat.mul_comm 0x800000]
          _ ≤ n / d * d := Nat.mul_le_mul_right d (hlow hpos)
          _ ≤ n := Nat.div_mul_le_self n d
      have hdpos : 0 < d * 2 ^ shift := Nat.mul_pos hd (Nat.two_pow_pos _)
      exact Or.inr ⟨Nat.le_trans ((Nat.le_div_iff_mul_le hdpos).mpr hfull) hle, hfull⟩

theorem isSize_ofUnits (hd : 0 < d) (h : n / d < 2 ^ 256) : (ofUnits false n d).IsSize := by
  obtain ⟨shift, places, hrounded, -, -, -, hfinite⟩ := roundedMagnitude_eq hd h
  exact isSize_ofMagnitude (hrounded ▸ hfinite)

theorem units_ofUnits_le (hd : 0 < d) (h : n / d < 2 ^ 256) :
    0x1000000 * (d * (ofUnits false n d).units) ≤ 0x1000001 * n + 0x800000 * d := by
  obtain ⟨shift, places, hrounded, hnearest, hplaces, hfirst, hfinite⟩ := roundedMagnitude_eq hd h
  have hmagnitude : (ofUnits false n d).magnitude = shift * 0x800000 + places := by
    rw [ofUnits, hrounded, magnitude_ofMagnitude (Nat.lt_trans hfinite (by decide))]
  have hbound := nearest_le n (d * 2 ^ shift)
  rw [← hnearest] at hbound
  rw [units_of_magnitude hmagnitude hplaces (hfirst.imp_right And.left), Nat.mul_comm places, ← Nat.mul_assoc d]
  -- Half of the last place is left out or added: that is little beside `n`, or there is no smaller place.
  rcases hfirst with rfl | ⟨-, hfull⟩
  · rw [Nat.pow_zero, Nat.mul_one] at hbound ⊢
    omega
  · omega

/-! ### Operations on finite sizes -/

theorem one_eq : one = 713623846352979940529142984724747568191373312 := by decide

theorem mul_one_div_lt (h : n < 2 ^ 107) : n * one / 1 < 2 ^ 256 := by
  rw [Nat.div_one]
  exact Nat.lt_of_lt_of_le (Nat.mul_lt_mul_of_pos_right h (by decide)) (by decide)

theorem isSize_ofNat (h : n < 2 ^ 107) : (ofNat n).IsSize := isSize_ofUnits (by decide) (mul_one_div_lt h)

theorem units_ofNat_le (h : n < 2 ^ 107) : 0x1000000 * (ofNat n).units ≤ 0x1000001 * (n * one) + 0x800000 := by
  have hrounded := units_ofUnits_le (by decide) (mul_one_div_lt h)
  rwa [Nat.one_mul] at hrounded

theorem mul_eq (hx : x.IsSize) (hy : y.IsSize) : x.mul y = ofUnits false (x.units * y.units) one := by
  simp [mul, hx.isNaN, hy.isNaN, hx.isInfinite, hy.isInfinite, hx.nonneg, hy.nonneg]

theorem div_eq (hx : x.IsSize) (hy : y.IsSize) (hpos : 0 < y.units) :
    x.div y = ofUnits false (x.units * one) y.units := by
  have hzero : y.isZero = false := decide_eq_false fun h => Nat.ne_of_gt hpos (units_eq_zero_iff.mpr h)
  simp [div, hx.isNaN, hy.isNaN, hx.isInfinite, hy.isInfinite, hx.nonneg, hy.nonneg, hzero]

theorem toWord_le (h : x.IsSize) : x.toWord ≤ x.units / one := by
  simp only [toWord, h.isNaN, h.nonneg, h.isInfinite, Bool.or_self, Bool.false_eq_true, if_false]
  exact Nat.min_le_right _ _

end Binary32
end StateSync

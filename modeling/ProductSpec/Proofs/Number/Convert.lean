/-
  Rounding where there is nothing to round: a quotient that is a number of the format becomes that
  number, so a single survives the way to a double and back.
-/
import ProductSpec.Number.Binary

namespace ProductSpec.Number

namespace BinaryFormat

variable {f : BinaryFormat} {m s : Nat}

/-- Every magnitude in the range of a format has its form there. -/
theorem exists_canonical (small : m < 1 <<< f.precision) (bounded : s ≤ f.maxShift) :
    ∃ m' s', f.Canonical m' s' ∧ m' <<< s' = m <<< s := by
  induction s generalizing m with
  | zero => exact ⟨m, 0, ⟨small, .inr rfl, Nat.zero_le _⟩, rfl⟩
  | succ s ih =>
    by_cases leading : 1 <<< (f.precision - 1) ≤ m
    · exact ⟨m, s + 1, ⟨small, .inl leading, bounded⟩, rfl⟩
    · -- Without a leading bit the significand can take over one bit of the shift.
      have doubled : m <<< 1 < 1 <<< f.precision := by
        simp only [Nat.shiftLeft_eq, Nat.one_mul, Nat.pow_one] at small leading ⊢
        rcases Nat.eq_zero_or_pos f.precision with none | some
        · rw [none] at small ⊢
          omega
        · have halves := Nat.two_pow_pred_mul_two some
          omega
      obtain ⟨m', s', canonical, same⟩ := ih doubled (Nat.le_of_succ_le bounded)
      refine ⟨m', s', canonical, same.trans ?_⟩
      rw [← Nat.shiftLeft_add, Nat.add_comm]

/-- The shift of a form can be told from its magnitude. -/
theorem Canonical.shift_eq (h : f.Canonical m s) (precise : 0 < f.precision) :
    (m <<< s).log2 + 1 - f.precision = s := by
  obtain ⟨small, leading, -⟩ := h
  rw [Nat.shiftLeft_eq, Nat.one_mul] at small leading
  rcases Nat.eq_zero_or_pos m with rfl | filled
  · rcases leading with leading | rfl
    · exact absurd leading (Nat.not_le.2 (Nat.two_pow_pos _))
    · rw [Nat.zero_shiftLeft, Nat.log2_zero]
      omega
  · have nonzero : m * 2 ^ s ≠ 0 := Nat.ne_of_gt (Nat.mul_pos filled (Nat.two_pow_pos s))
    have above : (m * 2 ^ s).log2 < f.precision + s := by
      rw [Nat.log2_lt nonzero, Nat.pow_add]
      exact Nat.mul_lt_mul_of_pos_right small (Nat.two_pow_pos s)
    rw [Nat.shiftLeft_eq]
    rcases leading with leading | rfl
    · have below : f.precision - 1 + s ≤ (m * 2 ^ s).log2 := by
        rw [Nat.le_log2 nonzero, Nat.pow_add]
        exact Nat.mul_le_mul_right _ leading
      omega
    · omega

end BinaryFormat

theorem one_shiftLeft_pos (k : Nat) : 0 < 1 <<< k := by
  rw [Nat.one_shiftLeft]
  exact Nat.two_pow_pos k

theorem roundDiv_mul (m : Nat) {den : Nat} (positive : 0 < den) : roundDiv (m * den) den = m := by
  rw [roundDiv, Nat.mul_mod_left, if_pos positive, Nat.mul_div_cancel m positive]

namespace Binary

variable {f : BinaryFormat} {m s : Nat}

theorem roundUnits_eq (canonical : f.Canonical m s) (precise : 0 < f.precision) {den : Nat}
    (positive : 0 < den) : roundUnits f ((m <<< s) * den) den = (m, s) := by
  have scaled : (m <<< s) * den = m * (den <<< s) := by
    rw [Nat.shiftLeft_eq, Nat.shiftLeft_eq, Nat.mul_assoc, Nat.mul_comm (2 ^ s)]
  have shifted : 0 < den <<< s := by
    rw [Nat.shiftLeft_eq]
    exact Nat.mul_pos positive (Nat.two_pow_pos s)
  unfold roundUnits
  simp only [Nat.mul_div_cancel _ positive, canonical.shift_eq precise]
  rw [scaled, roundDiv_mul m shifted, if_neg (Nat.ne_of_lt canonical.1)]

/-- A quotient that is a number of the format becomes that number. -/
theorem ofRatio_eq (canonical : f.Canonical m s) (precise : 0 < f.precision) (negative : Bool)
    {num den : Nat} (positive : 0 < den) (exactly : num <<< f.scale = (m <<< s) * den) :
    (ofRatio negative num den : Binary f) = .finite negative m s canonical := by
  rw [ofRatio, exactly, roundUnits_eq canonical precise positive]
  exact dif_pos canonical

/-- Nothing is lost in a wider format. -/
theorem narrow_widen {x : Single} (finite : x.isFinite = true) : x.widen.narrow = x := by
  cases x with
  | nan | infinite => cases finite
  | finite negative m s canonical =>
    -- The unit of a double is finer by some power of two, and its range is not exceeded.
    obtain ⟨k, scales, range⟩ : ∃ k, double.scale = k + single.scale ∧
        single.maxShift + k ≤ double.maxShift := ⟨925, by decide⟩
    obtain ⟨m', s', canonical', same⟩ := BinaryFormat.exists_canonical (f := double)
      (m := m) (s := s + k) (Nat.lt_trans canonical.1 (by decide))
      (Nat.le_trans (Nat.add_le_add_right canonical.2.2 k) range)
    have units : (m' <<< s') * 2 ^ single.scale = (m <<< s) * 2 ^ double.scale := by
      rw [same, Nat.shiftLeft_add, Nat.shiftLeft_eq _ k, Nat.mul_assoc, ← Nat.pow_add, scales]
    have wide : (Binary.finite negative m s canonical : Single).widen =
        .finite negative m' s' canonical' := by
      refine ofRatio_eq canonical' (by decide) negative (one_shiftLeft_pos single.scale) ?_
      rw [Nat.shiftLeft_eq, Nat.one_shiftLeft, units]
    rw [wide]
    refine ofRatio_eq canonical (by decide) negative (one_shiftLeft_pos double.scale) ?_
    rw [Nat.shiftLeft_eq, Nat.one_shiftLeft, units]

theorem isFinite_widen (x : Single) : x.widen.isFinite = x.isFinite := by
  cases x with
  | nan | infinite => rfl
  | finite negative m s canonical =>
    -- What is not finite would stay so on the way back.
    have back := narrow_widen (x := .finite negative m s canonical) rfl
    revert back
    cases (finite negative m s canonical : Single).widen with
    | nan | infinite => nofun
    | finite => exact fun _ => rfl

end Binary

end ProductSpec.Number

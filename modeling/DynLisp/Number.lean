/-! # Numbers

Numbers are integers, and those that programs read and compute fit in 64 bits with a sign.
Division goes toward zero.
-/

namespace DynLisp.Number

/-- The least number a program can hold, minus two to the power of 63. -/
def least : Int := -9223372036854775808

/-- The greatest number a program can hold, one less than two to the power of 63. -/
def greatest : Int := 9223372036854775807

/-- A number that fits in 64 bits with a sign. -/
def InRange (n : Int) : Prop := least ≤ n ∧ n ≤ greatest

instance (n : Int) : Decidable (InRange n) :=
  inferInstanceAs (Decidable (_ ∧ _))

/-- The quotient of the magnitudes of two integers, rounded down, with a minus sign if one of the
two integers is negative and the other is not. -/
def signedQuotient (a b : Int) : Int :=
  let q := Int.fdiv a.natAbs b.natAbs
  if decide (a < 0) = decide (b < 0) then q else -q

/-- The quotient of two integers, rounded toward zero; there is none by zero. -/
def quotient? (a b : Int) : Option Int :=
  if b = 0 then none else some (signedQuotient a b)

/-- Rounding the quotient of the magnitudes down rounds the quotient itself toward zero. -/
theorem signedQuotient_eq_tdiv (a b : Int) : signedQuotient a b = a.tdiv b := by
  have hq : Int.fdiv a.natAbs b.natAbs = Int.tdiv a.natAbs b.natAbs := by
    rw [Int.fdiv_eq_tdiv_of_nonneg (Int.natCast_nonneg _) (Int.natCast_nonneg _)]
  simp only [signedQuotient, hq]
  -- the signs of the dividend and of the divisor
  rcases Int.lt_or_le a 0 with ha | ha <;> rcases Int.lt_or_le b 0 with hb | hb
  · rw [Int.ofNat_natAbs_of_nonpos (Int.le_of_lt ha), Int.ofNat_natAbs_of_nonpos (Int.le_of_lt hb)]
    simp [ha, hb]
  · rw [Int.ofNat_natAbs_of_nonpos (Int.le_of_lt ha), Int.natAbs_of_nonneg hb]
    simp [ha, Int.not_lt.mpr hb]
  · rw [Int.natAbs_of_nonneg ha, Int.ofNat_natAbs_of_nonpos (Int.le_of_lt hb)]
    simp [Int.not_lt.mpr ha, hb]
  · rw [Int.natAbs_of_nonneg ha, Int.natAbs_of_nonneg hb]
    simp [Int.not_lt.mpr ha, Int.not_lt.mpr hb]

@[simp]
theorem quotient?_zero (a : Int) : quotient? a 0 = none := rfl

theorem quotient?_of_ne_zero (a : Int) {b : Int} (h : b ≠ 0) :
    quotient? a b = some (a.tdiv b) := by
  simp [quotient?, h, signedQuotient_eq_tdiv]

end DynLisp.Number

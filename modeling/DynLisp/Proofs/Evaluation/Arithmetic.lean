import DynLisp.Proofs.Evaluation.Forms
import DynLisp.Proofs.Evaluation.Operators
import Mathlib.Algebra.Group.Int.Defs

/-! # Exact arithmetic

On two integers, of any size, an operation gives the exact result if it fits in 64 bits and fails
otherwise. Division is told by its law: the remainder is smaller than the divisor and has the sign
of the dividend. -/

namespace DynLisp

/-! ### Division toward zero -/

/-- `q` is the quotient of `a` by `b`, with a remainder that is smaller than `b` and is zero or has
the sign of `a`. -/
def IsQuotient (a b q : Int) : Prop :=
  ∃ r, a = q * b + r ∧ r.natAbs < b.natAbs ∧ (r = 0 ∨ r.sign = a.sign)

theorem isQuotient_tdiv (a : Int) {b : Int} (hb : b ≠ 0) : IsQuotient a b (a.tdiv b) := by
  refine ⟨a.tmod b, (Int.tdiv_mul_add_tmod a b).symm, ?_, ?_⟩
  · rw [Int.natAbs_tmod]
    exact Nat.mod_lt _ (Int.natAbs_pos.mpr hb)
  · by_cases hd : b ∣ a
    · exact .inl (Int.tmod_eq_zero_of_dvd hd)
    · right
      rw [Int.sign_tmod, if_neg hd]

theorem IsQuotient.ne_zero {a b q : Int} (h : IsQuotient a b q) : b ≠ 0 := by
  rintro rfl
  obtain ⟨r, _, hr, _⟩ := h
  simp at hr

theorem IsQuotient.eq_tdiv {a b q : Int} (h : IsQuotient a b q) : q = a.tdiv b := by
  have hb := h.ne_zero
  obtain ⟨r, ha, hr, hs⟩ := h
  have hmul : r + b * q = a := by rw [ha, Int.mul_comm]; omega
  rcases Int.le_total 0 a with h0 | h0
  · have hr0 : 0 ≤ r := by
      rcases hs with rfl | hs
      · exact Int.le_refl 0
      · rwa [← Int.sign_nonneg_iff, hs, Int.sign_nonneg_iff]
    exact ((Int.tdiv_tmod_unique h0 hb).mpr ⟨hmul, hr0, by omega⟩).1.symm
  · have hr0 : r ≤ 0 := by
      rcases hs with rfl | hs
      · exact Int.le_refl 0
      · rwa [← Int.sign_nonpos_iff, hs, Int.sign_nonpos_iff]
    exact ((Int.tdiv_tmod_unique' h0 hb).mpr ⟨hmul, by omega, hr0⟩).1.symm

namespace Number

/-- The quotient is the number that the law of division determines. -/
theorem quotient?_eq_some_iff {a b q : Int} : quotient? a b = some q ↔ IsQuotient a b q := by
  constructor
  · intro h
    by_cases hb : b = 0
    · simp [hb] at h
    · rw [quotient?_of_ne_zero a hb] at h
      exact Option.some.inj h ▸ isQuotient_tdiv a hb
  · intro h
    rw [quotient?_of_ne_zero a h.ne_zero, h.eq_tdiv]

theorem quotient?_eq_none_iff {a b : Int} : quotient? a b = none ↔ b = 0 := by
  simp [quotient?]

theorem inRange_iff (n : Int) : InRange n ↔ -2 ^ 63 ≤ n ∧ n ≤ 2 ^ 63 - 1 := by
  simp only [InRange, least, greatest]
  omega

/-- Of all quotients of a number in range only one does not fit: the one of the least number by
minus one. -/
theorem inRange_tdiv_iff {a b : Int} (ha : InRange a) (hb : b ≠ 0) :
    InRange (a.tdiv b) ↔ ¬ (a = -2 ^ 63 ∧ b = -1) := by
  simp only [inRange_iff] at ha ⊢
  by_cases h1 : b.natAbs = 1
  · obtain rfl | rfl : b = 1 ∨ b = -1 := by omega
    · rw [Int.tdiv_one]
      omega
    · rw [Int.tdiv_neg, Int.tdiv_one]
      omega
  · -- a divisor of two or more halves the magnitude at least
    have hhalf : a.natAbs / b.natAbs ≤ a.natAbs / 2 := Nat.div_le_div_left (by omega) (by decide)
    have habs : (a.tdiv b).natAbs = a.natAbs / b.natAbs := Int.natAbs_tdiv a b
    omega

end Number

/-! ### Results -/

/-- A result is an error of the given kind. -/
def FailsAs (result : Except Fault Value) (label : String) : Prop :=
  ∃ fault, result = .error fault ∧ fault.label = label

/-- A result is the given integer if this fits in 64 bits, and an overflow if not. -/
structure IsChecked (result : Except Fault Value) (n : Int) : Prop where
  of_fits : -2 ^ 63 ≤ n ∧ n ≤ 2 ^ 63 - 1 → result = .ok (.number n)
  of_not_fits : ¬ (-2 ^ 63 ≤ n ∧ n ≤ 2 ^ 63 - 1) → FailsAs result "OwoIntegerOverflow"

/-- What the operators should give on two integers, by their names. -/
structure IsExact (a b : Int) (result : String → Except Fault Value) : Prop where
  add : IsChecked (result "+") (a + b)
  sub : IsChecked (result "-") (a - b)
  mul : IsChecked (result "*") (a * b)
  div_zero_iff : FailsAs (result "/") "OwoDivisionByZero" ↔ b = 0
  div : b ≠ 0 → ∃ q, (∀ p, IsQuotient a b p ↔ p = q) ∧ IsChecked (result "/") q
  /-- Of all quotients of an integer that fits in 64 bits one does not. -/
  div_overflow_iff : -2 ^ 63 ≤ a ∧ a ≤ 2 ^ 63 - 1 →
    (FailsAs (result "/") "OwoIntegerOverflow" ↔ a = -2 ^ 63 ∧ b = -1)
  eq : result "owo" = .ok (.boolean (decide (a = b)))
  ne : result "uwu" = .ok (.boolean (decide (a ≠ b)))
  ge : result "Owo" = .ok (.boolean (decide (a ≥ b)))
  le : result "owO" = .ok (.boolean (decide (a ≤ b)))
  gt : result "O_o" = .ok (.boolean (decide (a > b)))
  lt : result "o_O" = .ok (.boolean (decide (a < b)))

theorem failsAs_error_iff {fault : Fault} {label : String} :
    FailsAs (.error fault) label ↔ fault.label = label := by
  simp [FailsAs]

/-- The only error of a checked result is an overflow. -/
theorem IsChecked.failsAs_iff {result : Except Fault Value} {n : Int} {label : String}
    (h : IsChecked result n) :
    FailsAs result label ↔ label = "OwoIntegerOverflow" ∧ ¬ (-2 ^ 63 ≤ n ∧ n ≤ 2 ^ 63 - 1) := by
  by_cases hn : -2 ^ 63 ≤ n ∧ n ≤ 2 ^ 63 - 1
  · rw [h.of_fits hn]
    exact iff_of_false (by simp [FailsAs]) fun hnot => hnot.2 hn
  · obtain ⟨fault, hresult, hlabel⟩ := h.of_not_fits hn
    rw [hresult, failsAs_error_iff, hlabel, and_iff_left hn, eq_comm]

namespace Operator

theorem isChecked_apply {op : Arithmetic} {a b n : Int} (h : op.result? a b = some n) :
    IsChecked ((arithmetic op).apply a b) n where
  of_fits hn := apply_of_inRange h ((Number.inRange_iff n).mpr hn)
  of_not_fits hn :=
    ⟨.overflow op a b, apply_of_not_inRange h (mt (Number.inRange_iff n).mp hn), rfl⟩

theorem apply_of_compares {op : Comparison} {a b : Int} {t : Bool} (h : Compares op.name a b t) :
    (comparison op).apply a b = .ok (.boolean t) := by
  rw [(compares_iff op a b t).mp h]
  rfl

theorem apply_div_zero (a : Int) : (arithmetic .div).apply a 0 = .error (.divisionByZero a) :=
  apply_of_none (Number.quotient?_zero a)

theorem isChecked_div (a : Int) {b : Int} (hb : b ≠ 0) :
    IsChecked ((arithmetic .div).apply a b) (a.tdiv b) :=
  isChecked_apply (Number.quotient?_of_ne_zero a hb)

theorem div_zero_iff (a b : Int) :
    FailsAs ((arithmetic .div).apply a b) "OwoDivisionByZero" ↔ b = 0 := by
  by_cases hb : b = 0
  · subst hb
    simp [apply_div_zero, failsAs_error_iff, Fault.label]
  · simp [(isChecked_div a hb).failsAs_iff, hb]

theorem div_overflow_iff {a : Int} (b : Int) (ha : -2 ^ 63 ≤ a ∧ a ≤ 2 ^ 63 - 1) :
    FailsAs ((arithmetic .div).apply a b) "OwoIntegerOverflow" ↔ a = -2 ^ 63 ∧ b = -1 := by
  by_cases hb : b = 0
  · subst hb
    simp [apply_div_zero, failsAs_error_iff, Fault.label]
  · have hrange := Number.inRange_tdiv_iff ((Number.inRange_iff a).mpr ha) hb
    rw [(isChecked_div a hb).failsAs_iff, ← Number.inRange_iff, hrange]
    simp

theorem isExact_apply {a b : Int} {result : String → Except Fault Value}
    (h : ∀ op : Operator, result op.name = op.apply a b) : IsExact a b result where
  add := h (.arithmetic .add) ▸ isChecked_apply rfl
  sub := h (.arithmetic .sub) ▸ isChecked_apply rfl
  mul := h (.arithmetic .mul) ▸ isChecked_apply rfl
  div_zero_iff := h (.arithmetic .div) ▸ div_zero_iff a b
  div hb := by
    refine ⟨a.tdiv b, fun p => ?_, h (.arithmetic .div) ▸ isChecked_div a hb⟩
    constructor
    · exact IsQuotient.eq_tdiv
    · rintro rfl
      exact isQuotient_tdiv a hb
  div_overflow_iff ha := h (.arithmetic .div) ▸ div_overflow_iff b ha
  eq := (h (.comparison .eq)).trans (apply_of_compares (.eq a b))
  ne := (h (.comparison .ne)).trans (apply_of_compares (.ne a b))
  ge := (h (.comparison .ge)).trans (apply_of_compares (.ge a b))
  le := (h (.comparison .le)).trans (apply_of_compares (.le a b))
  gt := (h (.comparison .gt)).trans (apply_of_compares (.gt a b))
  lt := (h (.comparison .lt)).trans (apply_of_compares (.lt a b))

end Operator

theorem Form.combine_numbers (room : Nat) (op : Operator) (a b : Int) :
    combine room (.symbol op.name) (.number a) (.number b) = .ofExcept (op.apply a b) := by
  simp [combine, number, Operator.ofValue?]

/-- With a frame for its operands, an operation on two integers is the operator on them. -/
theorem Form.operation_numbers (room n : Nat) (op : Operator) (a b : Int) :
    operation room (eval (n + 1)) (.symbol op.name) [.number a, .number b] =
      .ofExcept (op.apply a b) := by
  rw [operation_pair, eval_constant (.number a), eval_constant (.number b), pure_bind, pure_bind,
    combine_numbers]

/-- On two integers, of any size, arithmetic is exact or fails, and comparisons are true or false.
The quotient by itself is the one that the law of division determines, without a bound. -/
theorem operation_isExact (room n : Nat) (a b : Int) (scope : Scope) :
    IsExact a b (fun op =>
      (Form.operation room (eval (n + 1)) (.symbol op) [.number a, .number b] scope).result) ∧
    (Number.quotient? a b = none ↔ b = 0) ∧
    ∀ q, Number.quotient? a b = some q ↔ IsQuotient a b q := by
  refine ⟨Operator.isExact_apply fun op => ?_, Number.quotient?_eq_none_iff, fun q => ?_⟩
  · rw [Form.operation_numbers]
    rfl
  · exact Number.quotient?_eq_some_iff

end DynLisp

import DynLisp.Operator.Apply
import DynLisp.Proofs.Evaluation.Computations

/-! # Operators follow the rules -/

namespace DynLisp

theorem exact_iff (op : Arithmetic) (a b n : Int) :
    Exact op.name a b n ↔ op.result? a b = some n := by
  constructor
  · intro h
    generalize hname : op.name = name at h
    cases h <;> cases op <;> simp_all [Arithmetic.name, Arithmetic.result?,
      Number.quotient?_of_ne_zero]
  · intro h
    cases op with
    | add => cases h; exact .add a b
    | sub => cases h; exact .sub a b
    | mul => cases h; exact .mul a b
    | div =>
        by_cases hb : b = 0
        · simp [Arithmetic.result?, hb] at h
        · rw [Arithmetic.result?, Number.quotient?_of_ne_zero a hb] at h
          cases h
          exact .div a hb

theorem compares_iff (op : Comparison) (a b : Int) (t : Bool) :
    Compares op.name a b t ↔ t = op.holds a b := by
  constructor
  · intro h
    generalize hname : op.name = name at h
    cases h <;> cases op <;>
      simp_all [Comparison.name, Comparison.holds, Bool.beq_eq_decide_eq, bne]
  · rintro rfl
    cases op with
    | eq => exact .eq a b
    | ne =>
        have h : Comparison.ne.holds a b = decide (a ≠ b) := by
          simp [Comparison.holds, Bool.beq_eq_decide_eq, bne]
        exact h ▸ .ne a b
    | ge => exact .ge a b
    | le => exact .le a b
    | gt => exact .gt a b
    | lt => exact .lt a b

theorem Comparison.not_exact (op : Comparison) (a b n : Int) : ¬ Exact op.name a b n := by
  intro h
  generalize hname : op.name = name at h
  cases h <;> cases op <;> simp [name] at hname

theorem Arithmetic.not_compares (op : Arithmetic) (a b : Int) (t : Bool) :
    ¬ Compares op.name a b t := by
  intro h
  generalize hname : op.name = name at h
  cases h <;> cases op <;> simp [name] at hname

/-- Only a division has no exact result. -/
theorem Arithmetic.result?_eq_none_iff (op : Arithmetic) (a b : Int) :
    op.result? a b = none ↔ op.name = "/" ∧ b = 0 := by
  cases op <;> simp [result?, name, Number.quotient?]

theorem Operator.apply_of_none {op : Arithmetic} {a b : Int} (h : op.result? a b = none) :
    (arithmetic op).apply a b = .error (.divisionByZero a) := by
  simp only [apply, h]

theorem Operator.apply_of_inRange {op : Arithmetic} {a b n : Int} (h : op.result? a b = some n)
    (hn : Number.InRange n) : (arithmetic op).apply a b = .ok (.number n) := by
  simp only [apply, h, if_pos hn]

theorem Operator.apply_of_not_inRange {op : Arithmetic} {a b n : Int}
    (h : op.result? a b = some n) (hn : ¬ Number.InRange n) :
    (arithmetic op).apply a b = .error (.overflow op a b) := by
  simp only [apply, h, if_neg hn]

/-- On numbers an operator gives what the rules say and nothing else. -/
theorem operates_iff (op : Operator) (a b : Int) (ending : Except Report Value) :
    Operates op.name (.number a) (.number b) ending ↔
      ending = (op.apply a b).mapError Fault.report := by
  rcases op with op | op
  · constructor
    · intro h
      cases h with
      | exact h hn => rw [Operator.apply_of_inRange ((exact_iff op a b _).mp h) hn]; rfl
      | overflow h hn => rw [Operator.apply_of_not_inRange ((exact_iff op a b _).mp h) hn]; rfl
      | byZero _ h =>
          rw [Operator.apply_of_none ((op.result?_eq_none_iff a 0).mpr ⟨h, rfl⟩)]; rfl
      | compare h => exact absurd h (op.not_compares a b _)
      | left _ h => exact absurd rfl (h a)
      | right _ h => exact absurd rfl (h b)
    · rintro rfl
      cases h : op.result? a b with
      | none =>
          obtain ⟨hname, rfl⟩ := (op.result?_eq_none_iff a b).mp h
          rw [Operator.apply_of_none h]
          exact .byZero a hname
      | some n =>
          have hx := (exact_iff op a b n).mpr h
          by_cases hn : Number.InRange n
          · rw [Operator.apply_of_inRange h hn]
            exact .exact hx hn
          · rw [Operator.apply_of_not_inRange h hn]
            exact .overflow hx hn
  · constructor
    · intro h
      cases h with
      | exact h _ => exact absurd h (op.not_exact a b _)
      | overflow h _ => exact absurd h (op.not_exact a b _)
      | byZero _ h => cases op <;> simp [Operator.name, Comparison.name] at h
      | compare h => rw [(compares_iff op a b _).mp h]; rfl
      | left _ h => exact absurd rfl (h a)
      | right _ h => exact absurd rfl (h b)
    · rintro rfl
      exact .compare ((compares_iff op a b _).mpr rfl)

theorem operates_left_iff {op : String} {x y : Value} {ending : Except Report Value}
    (h : ∀ n, x ≠ .number n) :
    Operates op x y ending ↔ ending = .error (.notNumber x) := by
  constructor
  · intro ho
    cases ho with
    | left => rfl
    | exact | overflow | byZero | compare | right => exact absurd rfl (h _)
  · rintro rfl
    exact .left y h

theorem operates_right_iff {op : String} {a : Int} {y : Value} {ending : Except Report Value}
    (h : ∀ n, y ≠ .number n) :
    Operates op (.number a) y ending ↔ ending = .error (.notNumber y) := by
  constructor
  · intro ho
    cases ho with
    | right => rfl
    | left _ hx => exact absurd rfl (hx a)
    | exact | overflow | byZero | compare => exact absurd rfl (h _)
  · rintro rfl
    exact .right a h

theorem Operator.apply_ne_exhaustion (op : Operator) (a b : Int) :
    op.apply a b ≠ .error .recursionLimit := by
  rcases op with op | op
  · simp only [apply]
    split
    · simp
    · split <;> simp
  · simp [apply]

end DynLisp

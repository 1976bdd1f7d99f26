import DynLisp.Proofs.Evaluation.Soundness
import DynLisp.Proofs.Evaluation.Writes
import DynLisp.Proofs.Running.Sequences
import Mathlib.Algebra.Group.Int.Defs

/-! # Calculations

Calculations with 64-bit integers, as they are known from elsewhere: arithmetic on mathematical
integers, comparisons and a choice between two calculations. A calculation has an answer or meets an
obstacle. Written as a program, it has the same answer or ends in the error that the obstacle
stands for, whatever the names in it are bound to, and it leaves all frames as they are. -/

namespace DynLisp

/-- An integer that fits in 64 bits. -/
def FitsWord (n : Int) : Prop := -2 ^ 63 ≤ n ∧ n < 2 ^ 63

instance (n : Int) : Decidable (FitsWord n) := inferInstanceAs (Decidable (_ ∧ _))

inductive Calculation where
  | literal (n : Int) (h : FitsWord n)
  | operation (op : Operator) (left right : Calculation)
  | choice (condition yes no : Calculation)

/-- The answer to a calculation. -/
inductive Answer where
  | integer (n : Int)
  | truth (b : Bool)
  deriving Repr, DecidableEq

/-- Why a calculation has no answer. -/
inductive Obstacle where
  | divisionByZero
  | overflow
  | notNumber
  | notBoolean
  deriving Repr, DecidableEq

def Answer.value : Answer → Value
  | .integer n => .number n
  | .truth b => .boolean b

/-- The kind of error that stands for an obstacle. -/
def Obstacle.label : Obstacle → String
  | .divisionByZero => "OwoDivisionByZero"
  | .overflow => "OwoIntegerOverflow"
  | .notNumber => "OwoInvalidArgumentType"
  | .notBoolean => "OwoInvalidConditionType"

namespace Calculation

/-! ### Answers -/

/-- An integer is an answer if it fits in 64 bits. -/
def fit (n : Int) : Except Obstacle Answer :=
  if FitsWord n then .ok (.integer n) else .error .overflow

/-- What an operator gives on two integers. Division goes toward zero. -/
def compute : Operator → Int → Int → Except Obstacle Answer
  | .arithmetic .add, a, b => fit (a + b)
  | .arithmetic .sub, a, b => fit (a - b)
  | .arithmetic .mul, a, b => fit (a * b)
  | .arithmetic .div, a, b => if b = 0 then .error .divisionByZero else fit (a.tdiv b)
  | .comparison .eq, a, b => .ok (.truth (decide (a = b)))
  | .comparison .ne, a, b => .ok (.truth (decide (a ≠ b)))
  | .comparison .ge, a, b => .ok (.truth (decide (a ≥ b)))
  | .comparison .le, a, b => .ok (.truth (decide (a ≤ b)))
  | .comparison .gt, a, b => .ok (.truth (decide (a > b)))
  | .comparison .lt, a, b => .ok (.truth (decide (a < b)))

/-- What an operator gives on two answers. -/
def combine (op : Operator) : Answer → Answer → Except Obstacle Answer
  | .integer a, .integer b => compute op a b
  | _, _ => .error .notNumber

/-- The answer to a calculation, or the first obstacle from left to right and from the inside
out. -/
def answer : Calculation → Except Obstacle Answer
  | .literal n _ => .ok (.integer n)
  | .operation op left right => do
    let x ← left.answer
    let y ← right.answer
    combine op x y
  | .choice condition yes no => do
    match ← condition.answer with
    | .truth true => yes.answer
    | .truth false => no.answer
    | .integer _ => .error .notBoolean

/-- What is seen of a calculation: its answer or the kind of its error. -/
def shown (c : Calculation) : Except String Value :=
  (c.answer.mapError Obstacle.label).map Answer.value

/-! ### Texts -/

/-- How an operator is written. -/
def sign : Operator → String
  | .arithmetic .add => "+"
  | .arithmetic .sub => "-"
  | .arithmetic .mul => "*"
  | .arithmetic .div => "/"
  | .comparison .eq => "owo"
  | .comparison .ne => "uwu"
  | .comparison .ge => "Owo"
  | .comparison .le => "owO"
  | .comparison .gt => "O_o"
  | .comparison .lt => "o_O"

/-- How a calculation is written. -/
def text : Calculation → String
  | .literal n _ => toString n
  | .operation op left right => "(" ++ sign op ++ " " ++ left.text ++ " " ++ right.text ++ ")"
  | .choice condition yes no =>
    "(if " ++ condition.text ++ " " ++ yes.text ++ " " ++ no.text ++ ")"

def IsLiteral : Calculation → Prop
  | .literal .. => True
  | .operation .. | .choice .. => False

/-- The number of calculations around the innermost literal. -/
def height : Calculation → Nat
  | .literal .. => 0
  | .operation _ left right => max left.height right.height + 1
  | .choice condition yes no => max condition.height (max yes.height no.height) + 1

/-! ### Trees -/

/-- The tree that the text of a calculation is read as. -/
def tree : Calculation → Value
  | .literal n _ => .number n
  | .operation op left right => .list [.symbol (sign op), left.tree, right.tree]
  | .choice condition yes no => .list [.symbol "if", condition.tree, yes.tree, no.tree]

theorem sign_eq (op : Operator) : sign op = op.name := by
  rcases op with op | op <;> cases op <;> rfl

theorem isName_sign (op : Operator) : IsName (sign op) := by
  rcases op with op | op <;> cases op <;> exact isName_of_not_isDigit (by decide) (by decide)

theorem inRange_iff_fitsWord (n : Int) : Number.InRange n ↔ FitsWord n := by
  simp only [Number.InRange, Number.least, Number.greatest, FitsWord]
  omega

theorem text_eq_display (c : Calculation) : c.text = c.tree.display := by
  induction c with
  | literal n h => exact (Numeral.decimal_eq_toString n).symm
  | operation op left right ihl ihr =>
      simp only [text, tree, Value.display, Value.listText, Value.displayAll,
        String.intercalate_cons_cons, String.intercalate_singleton, ihl, ihr, String.append_assoc]
  | choice condition yes no ihc ihy ihn =>
      have hif : "(if " = "(" ++ ("if" ++ " ") := rfl
      simp only [text, tree, Value.display, Value.listText, Value.displayAll,
        String.intercalate_cons_cons, String.intercalate_singleton, ihc, ihy, ihn, hif,
        String.append_assoc]

theorem readable_tree (c : Calculation) : Readable c.tree := by
  induction c with
  | literal n h => exact .number ((inRange_iff_fitsWord n).mpr h)
  | operation op left right ihl ihr =>
      refine .list ?_
      simp only [List.forall_mem_cons]
      exact ⟨.symbol (isName_sign op), ihl, ihr, by simp⟩
  | choice condition yes no ihc ihy ihn =>
      have hif : IsName "if" := isName_of_not_isDigit (by decide) (by decide)
      refine .list ?_
      simp only [List.forall_mem_cons]
      exact ⟨.symbol hif, ihc, ihy, ihn, by simp⟩

theorem depth_tree (c : Calculation) : c.tree.depth = c.height := by
  induction c with
  | literal n h => rfl
  | operation op left right ihl ihr =>
      simp [tree, Value.depth, Value.depthOfAll, height, ihl, ihr]
  | choice condition yes no ihc ihy ihn =>
      simp [tree, Value.depth, Value.depthOfAll, height, ihc, ihy, ihn]

/-- There are no definitions in a calculation. -/
theorem not_defines_tree (c : Calculation) (name : String) : ¬ c.tree.Defines name := by
  induction c with
  | literal n h => exact nofun
  | operation op left right ihl ihr =>
      have hsign : sign op ≠ "define" := by
        rcases op with op | op <;> cases op <;> decide
      exact Value.not_defines_list hsign (by simp [ihl, ihr])
  | choice condition yes no ihc ihy ihn =>
      exact Value.not_defines_list (by decide) (by simp [ihc, ihy, ihn])

/-! ### Evaluation -/

/-- A run ends with what a calculation should give and leaves the given scope. -/
inductive Gives (run : Run Value) (scope : Scope) : Except Obstacle Answer → Prop where
  | answer {x} (h : run.Settles (.ok x.value) scope) : Gives run scope (.ok x)
  | obstacle {o report} (h : run.Settles (.error report) scope) (hl : report.label = o.label) :
      Gives run scope (.error o)

variable {scope : Scope}

/-- An answer is passed on, and an obstacle ends it all. -/
theorem Gives.bind {m : Eval Value} {f : Value → Eval Value} {result : Except Obstacle Answer}
    {g : Answer → Except Obstacle Answer} (hm : Gives (m scope) scope result)
    (hf : ∀ x : Answer, Gives (f x.value scope) scope (g x)) :
    Gives ((m >>= f) scope) scope (result >>= g) := by
  cases hm with
  | obstacle h hl => exact .obstacle (Eval.settles_bind.mpr (.inl ⟨_, h, rfl⟩)) hl
  | @answer x h =>
      have hx := hf x
      change Gives ((m >>= f) scope) scope (g x)
      cases hg : g x with
      | ok y =>
          rw [hg] at hx
          cases hx with
          | answer h' => exact .answer (Eval.settles_bind.mpr (.inr ⟨_, _, h, h'⟩))
      | error o =>
          rw [hg] at hx
          cases hx with
          | obstacle h' hl => exact .obstacle (Eval.settles_bind.mpr (.inr ⟨_, _, h, h'⟩)) hl

/-- With a frame to display it in, an answer of the wrong kind is an obstacle. -/
theorem gives_reject {room : Nat} (hr : 1 ≤ room) (x : Answer) {cause : Value → Fault}
    {o : Obstacle} (hl : (cause x.value).label = o.label) :
    Gives (Eval.reject room x.value cause scope) scope (.error o) := by
  have hframes : x.value.displayFrames = 1 := by
    cases x <;> rfl
  have hne : cause x.value ≠ .recursionLimit := by
    rw [Ne, ← Fault.label_eq_iff, hl]
    cases o <;> decide
  refine .obstacle (Eval.settles_reject.mpr ⟨⟨?_, hne⟩, rfl, rfl⟩) hl
  omega

/-- The integer that arithmetic gives is checked as an answer is. -/
theorem gives_fit {op : Arithmetic} {a b n : Int} (h : op.result? a b = some n) :
    Gives (Eval.ofExcept ((Operator.arithmetic op).apply a b) scope) scope (fit n) := by
  by_cases hn : FitsWord n
  · rw [Operator.apply_of_inRange h ((inRange_iff_fitsWord n).mpr hn), fit, if_pos hn]
    exact .answer (Eval.settles_ofExcept.mpr ⟨nofun, rfl, rfl⟩)
  · rw [Operator.apply_of_not_inRange h (mt (inRange_iff_fitsWord n).mp hn), fit, if_neg hn]
    exact .obstacle (Eval.settles_ofExcept.mpr ⟨nofun, rfl, rfl⟩) rfl

theorem compute_comparison (op : Comparison) (a b : Int) :
    compute (.comparison op) a b = .ok (.truth (op.holds a b)) := by
  cases op with
  | eq => rw [← (compares_iff .eq a b _).mp (.eq a b), compute]
  | ne => rw [← (compares_iff .ne a b _).mp (.ne a b), compute]
  | ge => rw [← (compares_iff .ge a b _).mp (.ge a b), compute]
  | le => rw [← (compares_iff .le a b _).mp (.le a b), compute]
  | gt => rw [← (compares_iff .gt a b _).mp (.gt a b), compute]
  | lt => rw [← (compares_iff .lt a b _).mp (.lt a b), compute]

theorem gives_compute (op : Operator) (a b : Int) :
    Gives (Eval.ofExcept (op.apply a b) scope) scope (compute op a b) := by
  rcases op with op | op
  · cases op with
    | add | sub | mul => exact gives_fit rfl
    | div =>
        by_cases hb : b = 0
        · subst hb
          exact .obstacle (Eval.settles_ofExcept.mpr ⟨nofun, rfl, rfl⟩) rfl
        · rw [compute, if_neg hb]
          exact gives_fit (Number.quotient?_of_ne_zero a hb)
  · rw [compute_comparison]
    exact .answer (Eval.settles_ofExcept.mpr ⟨nofun, rfl, rfl⟩)

/-- With a frame to display an operand in, an operation gives what its operator does on the
answers. -/
theorem gives_combine {room : Nat} (hr : 1 ≤ room) (op : Operator) (x y : Answer) :
    Gives (Form.combine room (.symbol (sign op)) x.value y.value scope) scope (combine op x y) := by
  cases x with
  | truth b =>
      have hreject : Form.combine room (.symbol (sign op)) (.boolean b) y.value =
          .reject room (.boolean b) .notNumber := by
        simp [Form.combine, Form.number]
      rw [Answer.value, hreject]
      exact gives_reject hr (.truth b) rfl
  | integer a =>
      cases y with
      | truth b =>
          have hreject : Form.combine room (.symbol (sign op)) (.number a) (.boolean b) =
              .reject room (.boolean b) .notNumber := by
            simp [Form.combine, Form.number]
          rw [Answer.value, Answer.value, hreject]
          exact gives_reject hr (.truth b) rfl
      | integer b =>
          have happly : Form.combine room (.symbol (sign op)) (.number a) (.number b) =
              .ofExcept (op.apply a b) := by
            simp [Form.combine, Form.number, Operator.ofValue?, sign_eq]
          rw [Answer.value, Answer.value, happly]
          exact gives_compute op a b

theorem gives_tree (c : Calculation) {limit : Nat} (h : 2 * c.height + 1 ≤ limit) (scope : Scope) :
    Gives (eval limit c.tree scope) scope c.answer := by
  induction c generalizing limit with
  | literal n hn =>
      obtain ⟨k, rfl⟩ := Nat.exists_eq_add_of_le' (show 1 ≤ limit by omega)
      rw [tree, eval_constant (.number n)]
      exact .answer (Eval.settles_pure.mpr ⟨rfl, rfl⟩)
  | operation op left right ihl ihr =>
      simp only [height] at h
      obtain ⟨n, rfl⟩ := Nat.exists_eq_add_of_le' (show 2 ≤ limit by omega)
      have ho : sign op ∈ operatorNames := mem_operatorNames_iff.mpr ⟨op, (sign_eq op).symm⟩
      rw [tree, eval_list, Form.list_operation _ ho, Form.operation_pair]
      refine (ihl (by omega)).bind fun x => ?_
      refine (ihr (by omega)).bind fun y => ?_
      exact gives_combine (by omega) op x y
  | choice condition yes no ihc ihy ihn =>
      simp only [height] at h
      obtain ⟨n, rfl⟩ := Nat.exists_eq_add_of_le' (show 2 ≤ limit by omega)
      rw [tree, eval_list, Form.list_conditional, Form.conditional_triple]
      refine (ihc (by omega)).bind fun x => ?_
      cases x with
      | truth b =>
          cases b with
          | true => exact ihy (by omega)
          | false => exact ihn (by omega)
      | integer a =>
          exact gives_reject (by omega) (.integer a) rfl

theorem mapError_label_ending (run : Run Value) :
    run.ending.mapError Report.label = run.result.mapError Fault.label := by
  unfold Run.ending
  cases run.result <;> rfl

theorem Gives.label_eq {run : Run Value} {result : Except Obstacle Answer}
    (h : Gives run scope result) :
    run.result ≠ .error .recursionLimit ∧
      run.result.mapError Fault.label = (result.mapError Obstacle.label).map Answer.value := by
  rw [← mapError_label_ending]
  cases h with
  | answer h => exact ⟨h.1, by rw [h.2.1]; rfl⟩
  | obstacle h hl => exact ⟨h.1, by rw [h.2.1, mapError_error, hl]; rfl⟩

/-- With any number of frames a calculation gives what it should or runs out of them. -/
theorem eval_tree (c : Calculation) (limit : Nat) (scope : Scope) :
    (eval limit c.tree scope).result = .error .recursionLimit ∨
      (eval limit c.tree scope).result.mapError Fault.label = c.shown := by
  by_cases hne : (eval limit c.tree scope).result = .error .recursionLimit
  · exact .inl hne
  · -- an evaluation that ends is the same with the frames that are known to suffice
    have hmore := eval_eq_of_le (Nat.le_max_left limit (2 * c.height + 1)) hne
    have hgives := c.gives_tree (Nat.le_max_right limit (2 * c.height + 1)) scope
    rw [hmore] at hgives
    exact .inr hgives.label_eq.2

/-! ### Programs -/

theorem exists_tree_eq {c : Calculation} (h : ¬ c.IsLiteral) : ∃ items, c.tree = .list items := by
  cases c with
  | literal n hn => exact absurd trivial h
  | operation op left right => exact ⟨_, rfl⟩
  | choice condition yes no => exact ⟨_, rfl⟩

variable {c : Calculation} {items : List Value} {interpreter : Interpreter}

theorem parse_text (h : c.tree = .list items) : Program.parse c.text = .ok items := by
  rw [text_eq_display, h]
  exact Program.parse_display (h ▸ c.readable_tree)

theorem scope_run_text (h : c.tree = .list items) (interpreter : Interpreter) (scope : Scope) :
    (interpreter.run c.text scope).scope = scope := by
  have hd : ∀ name, ¬ (Value.list items).Defines name := fun name => h ▸ c.not_defines_tree name
  simp only [Interpreter.run, parse_text h, Interpreter.runProgram]
  split
  · rfl
  · exact scope_eval_of_not_defines hd interpreter.limit scope

theorem result_run_text (h : c.tree = .list items) (interpreter : Interpreter) (scope : Scope) :
    (interpreter.run c.text scope).result = .error (.faulty .recursionLimit) ∨
      (interpreter.run c.text scope).result.mapError Failure.label = c.shown := by
  by_cases ht : interpreter.CanTrace items
  · rw [(Interpreter.run_of_canTrace (parse_text h) ht scope).1, ← h]
    rcases c.eval_tree interpreter.limit scope with he | hshown
    · exact .inl (by rw [he]; rfl)
    · refine .inr ?_
      rw [← hshown]
      cases (eval interpreter.limit c.tree scope).result <;> rfl
  · exact .inl (Interpreter.run_of_not_canTrace (parse_text h) ht scope)

/-- The frames that suffice to evaluate a calculation suffice to write it to the log. -/
theorem canTrace_tree (h : c.tree = .list items) (hl : 2 * c.height + 1 ≤ interpreter.limit) :
    interpreter.CanTrace items := by
  intro _
  have htree : IsTree (.list items) := h ▸ c.readable_tree.isTree
  rw [Shape.depth_ofList htree, ← h, depth_tree]
  omega

theorem run_text_ne_recursionLimit (h : c.tree = .list items)
    (hl : 2 * c.height + 1 ≤ interpreter.limit) (scope : Scope) :
    (interpreter.run c.text scope).result ≠ .error (.faulty .recursionLimit) := by
  rw [(Interpreter.run_of_canTrace (parse_text h) (canTrace_tree h hl) scope).1, ← h]
  have hne := (c.gives_tree hl scope).label_eq.1
  cases hr : (eval interpreter.limit c.tree scope).result with
  | ok v => simp
  | error fault =>
      intro he
      rw [hr] at hne
      cases he
      exact hne rfl

/-- A calculation that is no mere literal, run as a program, leaves all frames as they are and has
its answer for its value or ends in the error that its obstacle stands for, unless it runs out of
frames. It does not if there are two frames for each of its levels and one more. -/
theorem run_text_shows_answer (interpreter : Interpreter) (c : Calculation) (hc : ¬ c.IsLiteral)
    (scope : Scope) :
    let outcome := interpreter.run c.text scope
    outcome.scope = scope ∧
      (outcome.result = .error (.faulty .recursionLimit) ∨
        outcome.result.mapError Failure.label = c.shown) ∧
      (2 * c.height + 1 ≤ interpreter.limit →
        outcome.result ≠ .error (.faulty .recursionLimit)) := by
  intro outcome
  obtain ⟨items, htree⟩ := exists_tree_eq hc
  refine ⟨scope_run_text htree interpreter scope, result_run_text htree interpreter scope, ?_⟩
  exact fun hl => run_text_ne_recursionLimit htree hl scope

/-- A choice of a sum that does not fit over a division by zero. -/
def choiceOfOverflow : Calculation :=
  .choice (.operation (.comparison .gt)
      (.operation (.arithmetic .div) (.literal (-7) (by decide)) (.literal 2 (by decide)))
      (.literal (-4) (by decide)))
    (.operation (.arithmetic .add) (.literal 9223372036854775807 (by decide))
      (.literal 1 (by decide)))
    (.operation (.arithmetic .div) (.literal 1 (by decide)) (.literal 0 (by decide)))

/-- The branch not taken makes no difference, nor do the values of names. -/
theorem run_text_shows_answer_choice :
    let scope := Scope.ofFrame ⟨[("if", .number 1), ("+", .number 2), ("x", .null)]⟩
    let outcome := Interpreter.standard.run choiceOfOverflow.text scope
    choiceOfOverflow.text = "(if (O_o (/ -7 2) -4) (+ 9223372036854775807 1) (/ 1 0))" ∧
      ¬ choiceOfOverflow.IsLiteral ∧ outcome.scope = scope ∧
      outcome.result.mapError Failure.label = .error "OwoIntegerOverflow" := by
  intro scope outcome
  have hc : ¬ choiceOfOverflow.IsLiteral := id
  have hshown : choiceOfOverflow.shown = .error "OwoIntegerOverflow" := rfl
  obtain ⟨hscope, hresult, hframes⟩ := run_text_shows_answer .standard choiceOfOverflow hc scope
  have hne := hframes (by decide)
  exact ⟨by decide +kernel, hc, hscope, hshown ▸ hresult.resolve_left hne⟩

end Calculation

end DynLisp

import DynLisp.Eval.Form

/-! # Evaluation

Evaluation runs on a number of frames. Evaluating anything takes one frame; a list takes one more
around its elements, and a call yet another one around its arguments. When no frame is left, the
evaluation ends with a fault, and what was defined before stays defined.
-/

namespace DynLisp

/-- Evaluates an expression with the given number of frames. -/
def eval : Nat → Value → Eval Value
  | 0, _ => .fail .recursionLimit
  | _ + 1, .symbol name => do
    match ← Eval.value? name with
    | none => .fail (.undefinedSymbol name)
    | some v => return v
  | 1, .list _ => .fail .recursionLimit
  | n + 2, .list items =>
    let evalArgument := match n with
      | 0 => fun _ => .fail .recursionLimit
      | k + 1 => fun e => eval k e
    Form.list n (fun e => eval n e) evalArgument items
  | _ + 1, .lambda .. => return .void
  | _ + 1, v => return v

theorem eval_zero (e : Value) : eval 0 e = .fail .recursionLimit := by
  simp [eval]

theorem eval_one_list (items : List Value) : eval 1 (.list items) = .fail .recursionLimit := by
  simp [eval]

/-- A list is evaluated as a form, the elements with two frames less and arguments with three. -/
theorem eval_list (n : Nat) (items : List Value) :
    eval (n + 2) (.list items) = Form.list n (eval n) (eval (n - 1)) items := by
  cases n with
  | zero =>
      have h : eval 0 = fun _ => .fail .recursionLimit := funext eval_zero
      simp [eval, h]
  | succ n => simp [eval]

end DynLisp

import DynLisp.Fault

/-! # Applying operators

Arithmetic is exact on integers of any size; only its result has to fit in 64 bits.
-/

namespace DynLisp

/-- What an operator gives on two integers: arithmetic results have to fit in 64 bits. -/
def Operator.apply (op : Operator) (a b : Int) : Except Fault Value :=
  match op with
  | .comparison op => .ok (.boolean (op.holds a b))
  | .arithmetic op =>
    match op.result? a b with
    | none => .error (.divisionByZero a)
    | some n => if Number.InRange n then .ok (.number n) else .error (.overflow op a b)

end DynLisp

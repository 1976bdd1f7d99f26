import DynLisp.Number
import DynLisp.Value.Basic

/-! # Operators

The ten operators of the language. Each takes two numbers: the arithmetic ones give a number, the
comparisons a truth value.
-/

namespace DynLisp

inductive Arithmetic where
  | add
  | sub
  | mul
  | div
  deriving Repr, DecidableEq

inductive Comparison where
  | eq
  | ne
  | ge
  | le
  | gt
  | lt
  deriving Repr, DecidableEq

inductive Operator where
  | arithmetic (op : Arithmetic)
  | comparison (op : Comparison)
  deriving Repr, DecidableEq

def Arithmetic.name : Arithmetic → String
  | .add => "+"
  | .sub => "-"
  | .mul => "*"
  | .div => "/"

/-- The exact result of an operation on integers; there is none for a division by zero. -/
def Arithmetic.result? (op : Arithmetic) (a b : Int) : Option Int :=
  match op with
  | .add => some (a + b)
  | .sub => some (a - b)
  | .mul => some (a * b)
  | .div => Number.quotient? a b

def Comparison.name : Comparison → String
  | .eq => "owo"
  | .ne => "uwu"
  | .ge => "Owo"
  | .le => "owO"
  | .gt => "O_o"
  | .lt => "o_O"

/-- Whether a comparison holds between two integers. -/
def Comparison.holds (op : Comparison) (a b : Int) : Bool :=
  match op with
  | .eq => a == b
  | .ne => a != b
  | .ge => decide (a ≥ b)
  | .le => decide (a ≤ b)
  | .gt => decide (a > b)
  | .lt => decide (a < b)

namespace Operator

def name : Operator → String
  | .arithmetic op => op.name
  | .comparison op => op.name

def all : List Operator :=
  [.arithmetic .add, .arithmetic .sub, .arithmetic .mul, .arithmetic .div, .comparison .eq,
    .comparison .ne, .comparison .ge, .comparison .le, .comparison .gt, .comparison .lt]

/-- The operator of a name. -/
def ofName? (name : String) : Option Operator := all.find? (·.name == name)

@[simp]
theorem ofName?_name (op : Operator) : ofName? op.name = some op := by
  rcases op with op | op <;> cases op <;> decide

/-- The operator that a symbol names; no other value names one. -/
def ofValue? : Value → Option Operator
  | .symbol name => ofName? name
  | _ => none

end Operator

end DynLisp

import DynLisp.Operator.Basic
import DynLisp.Value.Display

/-! # Faults

What can go wrong in an evaluation. A fault keeps the values it is about; its wording is in one
place.
-/

namespace DynLisp

inductive Fault where
  /-- An operator, a definition or a function form with the wrong number of elements, the head
  included. -/
  | elementCount (count : Nat)
  /-- A conditional with the wrong number of elements, the head included. -/
  | conditionalCount (count : Nat)
  /-- A call with fewer arguments than the function has parameters. -/
  | missingArguments (expected given : Nat)
  | unknownOperator (operator : Value)
  | notNumber (operand : Value)
  | notSymbol (name : Value)
  | notBoolean (condition : Value)
  | paramsNotList (params : Value)
  | paramNotSymbol (param : Value)
  | bodyNotList (body : Value)
  | undefinedSymbol (name : String)
  | undefinedFunction (name : String)
  | notFunction (name : String)
  | divisionByZero (dividend : Int)
  /-- A result that does not fit in 64 bits. -/
  | overflow (op : Arithmetic) (left right : Int)
  /-- Evaluation needs more frames than there are. -/
  | recursionLimit
  deriving Repr

namespace Fault

def message : Fault → String
  | .elementCount count => "Invalid number of arguments: " ++ Numeral.decimal count
  | .conditionalCount count =>
    "Invalid number of arguments for condition statement : " ++ Numeral.decimal count
  | .missingArguments expected given =>
    "Invalid number of arguments: expected " ++ Numeral.decimal expected ++ ", got " ++
      Numeral.decimal given
  | .unknownOperator operator => "Invalid operator: " ++ operator.display
  | .notNumber operand => "Invalid argument. argument must be an Number: " ++ operand.display
  | .notSymbol name => "Invalid argument. argument must be an Symbol: " ++ name.display
  | .notBoolean condition => "Condition must be a boolean. got: " ++ condition.display
  | .paramsNotList params => "Invalid Lambda: parameters must be a list: " ++ params.display
  | .paramNotSymbol param => "Invalid Lambda: parameter must be an Symbol: " ++ param.display
  | .bodyNotList body => "Invalid Lambda: body must be a list: " ++ body.display
  | .undefinedSymbol name => "Undefined symbol: " ++ name
  | .undefinedFunction name => "Undefined function: " ++ name
  | .notFunction name => "Invalid function: " ++ name
  | .divisionByZero dividend => "Division by zero: " ++ Numeral.decimal dividend ++ " / 0"
  | .overflow op left right =>
    "Integer overflow: " ++ Numeral.decimal left ++ " " ++ op.name ++ " " ++ Numeral.decimal right
  | .recursionLimit => "Maximum recursion depth exceeded"

/-- The name of the kind of a fault, as log records give it. -/
def label : Fault → String
  | .elementCount _ | .conditionalCount _ | .missingArguments .. => "OwoInvalidArgumentCount"
  | .unknownOperator _ => "OwoInvalidOperator"
  | .notNumber _ | .notSymbol _ => "OwoInvalidArgumentType"
  | .notBoolean _ => "OwoInvalidConditionType"
  | .paramsNotList _ | .paramNotSymbol _ | .bodyNotList _ => "OwoInvalidLambda"
  | .undefinedSymbol _ => "OwoUndefinedSymbol"
  | .undefinedFunction _ => "OwoUndefinedFunction"
  | .notFunction _ => "OwoInvalidFunction"
  | .divisionByZero _ => "OwoDivisionByZero"
  | .overflow .. => "OwoIntegerOverflow"
  | .recursionLimit => "OwoRecursionError"

end Fault

end DynLisp

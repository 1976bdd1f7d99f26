import DynLisp.Numeral
import DynLisp.Text.Quoted
import DynLisp.Value.Basic

/-! # How values are inspected

The text of a value for log records and for the display of environments. It tells apart what
`display` does not: a symbol from a text, a function from a list, a truth value from a symbol.
-/

namespace DynLisp.Value

/-- Texts between square brackets, with commas between them. -/
def bracketed (texts : List String) : String :=
  "[" ++ ", ".intercalate texts ++ "]"

mutual

/-- The unambiguous text of a value. -/
def inspect : Value → String
  | .number n => Numeral.decimal n
  | .symbol name => "Symbol(" ++ Text.quoted name ++ ")"
  | .boolean b => if b then "True" else "False"
  | .list items => bracketed (inspectAll items)
  | .lambda params body =>
    "Lambda(" ++ bracketed (params.map Text.quoted) ++ ", " ++ bracketed (inspectAll body) ++ ")"
  | .void => "Void"
  | .null => "None"
  | .text content => Text.quoted content

/-- The unambiguous texts of some values, in order. -/
def inspectAll : List Value → List String
  | [] => []
  | v :: vs => v.inspect :: inspectAll vs

end

end DynLisp.Value

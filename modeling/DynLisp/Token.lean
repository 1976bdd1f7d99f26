import DynLisp.Number
import DynLisp.Numeral
import DynLisp.Text.Blank

/-! # Tokens

A source text is a sequence of parentheses, numbers and symbols. Parentheses stand for themselves
wherever they occur; everything else comes in words, which blanks and parentheses part. A word is a
number when it spells one that fits in 64 bits, and a symbol otherwise: there is no quoting.
-/

namespace DynLisp

inductive Token where
  | lparen
  | rparen
  | number (value : Int)
  | symbol (name : String)
  deriving Repr, DecidableEq

/-- A token that need not come from a text: a parenthesis may then carry a label. -/
structure Token.Labelled where
  token : Token
  label : Option String
  deriving Repr, DecidableEq

/-- Why a word is no token. -/
inductive WordFault where
  | empty
  /-- A numeral of more digits than are ever read. -/
  | tooManyDigits (count : Nat)
  deriving Repr, DecidableEq

def WordFault.message : WordFault → String
  | .empty => "Unexpected character: "
  | .tooManyDigits count =>
    "Exceeds the limit (" ++ Numeral.decimal Numeral.maxDigits ++
      " digits) for integer string conversion: value has " ++ Numeral.decimal count ++
      " digits; use sys.set_int_max_str_digits() to increase the limit"

namespace Token

/-- A token as error messages name it. -/
def describe : Token → String
  | .lparen => "("
  | .rparen => ")"
  | .number value => "Number(" ++ Numeral.decimal value ++ ")"
  | .symbol name => "Symbol(" ++ name ++ ")"

/-- The token that a word stands for. A numeral out of range is a symbol, but one with too many
digits is refused. -/
def ofWord (word : List Char) : Except WordFault Token :=
  if word = ['('] then .ok .lparen
  else if word = [')'] then .ok .rparen
  else if word = [] then .error .empty
  else match Numeral.ofWord? word with
    | none => .ok (.symbol (String.ofList word))
    | some numeral =>
      if ¬numeral.IsReadable then .error (.tooManyDigits numeral.digits.length)
      else if Number.InRange numeral.value then .ok (.number numeral.value)
      else .ok (.symbol (String.ofList word))

def isParenthesis (c : Char) : Bool := c == '(' || c == ')'

/-- A character with blanks around it if it is a parenthesis. -/
def pad (c : Char) : List Char :=
  if isParenthesis c then [' ', c, ' '] else [c]

/-- The tokens of a text. The leftmost word that is no token makes the whole text fail. -/
def tokenize (text : String) : Except WordFault (List Token) :=
  (Text.words (text.toList.flatMap pad)).mapM ofWord

end Token

end DynLisp

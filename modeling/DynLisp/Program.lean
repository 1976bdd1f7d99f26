import DynLisp.Token
import DynLisp.Value.Basic

/-! # Programs

A program is one parenthesised list of numbers, symbols and lists. It is read off the tokens in one
pass that keeps the lists not yet closed on a stack, so no depth of nesting is too much for it.
-/

namespace DynLisp

/-- Why a text is no program. -/
inductive ReadFault where
  | word (cause : WordFault)
  /-- The text does not begin with an opening parenthesis. -/
  | noOpening
  /-- The text ends within a list. -/
  | noClosing
  /-- The text goes on after the end of the outermost list. -/
  | trailing (token : Token)
  deriving Repr, DecidableEq

def ReadFault.message : ReadFault → String
  | .word cause => cause.message
  | .noOpening => "Parentheses pair do not match: program must begin with '('"
  | .noClosing => "Parentheses pair do not match: missing ')'"
  | .trailing token =>
    "Parentheses pair do not match: unexpected " ++ token.describe ++ " after end of program"

namespace Program

/-- What reading one list gives, and the tokens that it leaves over. -/
structure Reading where
  result : Except ReadFault (List Value)
  rest : List Token

/-- Reads on in a list of which `elements` have been read, the last one first, inside the lists
`outer`, of which the elements so far are kept in the same way, the innermost list first. -/
def readWithin : List Token → (elements : List Value) → (outer : List (List Value)) → Reading
  | [], _, _ => ⟨.error .noClosing, []⟩
  | .lparen :: rest, elements, outer => readWithin rest [] (elements :: outer)
  | .rparen :: rest, elements, [] => ⟨.ok elements.reverse, rest⟩
  | .rparen :: rest, elements, next :: outer =>
    readWithin rest (.list elements.reverse :: next) outer
  | .number n :: rest, elements, outer => readWithin rest (.number n :: elements) outer
  | .symbol name :: rest, elements, outer => readWithin rest (.symbol name :: elements) outer

/-- Reads one list off the front of the tokens. A first token that opens no list is used up. -/
def readList : List Token → Reading
  | [] => ⟨.error .noOpening, []⟩
  | .lparen :: rest => readWithin rest [] []
  | _ :: rest => ⟨.error .noOpening, rest⟩

/-- Reads one list off the front of tokens that may carry labels. A parenthesis with a label does
not open the outermost list; further in, labels mean nothing. -/
def readLabelled : List Token.Labelled → Reading
  | ⟨.lparen, some _⟩ :: rest => ⟨.error .noOpening, rest.map (·.token)⟩
  | tokens => readList (tokens.map (·.token))

/-- Reads the tokens as one list with nothing after it. -/
def ofTokens (tokens : List Token) : Except ReadFault (List Value) :=
  let reading := readList tokens
  match reading.result, reading.rest with
  | .error fault, _ => .error fault
  | .ok items, [] => .ok items
  | .ok _, token :: _ => .error (.trailing token)

/-- Reads a text as a program. -/
def parse (text : String) : Except ReadFault (List Value) :=
  match Token.tokenize text with
  | .error fault => .error (.word fault)
  | .ok tokens => ofTokens tokens

end Program

end DynLisp

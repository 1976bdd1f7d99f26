import DynLisp.Text.Digit

/-! # Numerals

Numbers as they are written: an optional sign and decimal digits. Source texts allow the ASCII
digits only; settings allow the digits of every script and an underscore between two digits.
-/

namespace DynLisp

/-- A written number: its sign and the worth of its digits, leading zeros included. -/
structure Numeral where
  negative : Bool
  digits : List Nat
  deriving Repr, DecidableEq

namespace Numeral

/-- Numerals of more digits than this are refused unread, and so are numbers that would take more
digits to write. -/
def maxDigits : Nat := 4300

/-- Whether a numeral is short enough to be read. -/
def IsReadable (numeral : Numeral) : Prop := numeral.digits.length ≤ maxDigits

instance (numeral : Numeral) : Decidable numeral.IsReadable :=
  inferInstanceAs (Decidable (_ ≤ _))

/-- The number that decimal digits stand for, the most significant digit first. -/
def magnitude (digits : List Nat) : Nat :=
  digits.foldl (fun n d => 10 * n + d) 0

/-- The number that a numeral stands for. -/
def value (numeral : Numeral) : Int :=
  if numeral.negative then -(magnitude numeral.digits : Int) else magnitude numeral.digits

/-- Parts an optional sign from what follows it; the flag says that the sign is a minus. -/
def splitSign : List Char → Bool × List Char
  | '+' :: rest => (false, rest)
  | '-' :: rest => (true, rest)
  | rest => (false, rest)

/-- Reads a word that is an optional sign and one or more ASCII digits. -/
def ofWord? (word : List Char) : Option Numeral :=
  let (negative, rest) := splitSign word
  if rest.isEmpty then none else (rest.mapM Text.asciiDigit?).map (⟨negative, ·⟩)

/-- Reads digits of any script. Underscores may stand between two digits, one at a time. -/
def groupedDigits? (cs : List Char) : Option (List Nat) :=
  let groups := cs.splitOn '_'
  if groups.any (·.isEmpty) then none else groups.flatten.mapM Text.decimalDigit?

/-- Reads an optional ASCII sign and one or more digits of any script with underscores between
them. -/
def ofGrouped? (word : List Char) : Option Numeral :=
  let (negative, rest) := splitSign word
  (groupedDigits? rest).map (⟨negative, ·⟩)

/-- Whether a number is short enough to be written. All numbers that programs read and compute are;
longer ones can only be handed to the operators from outside. -/
def IsWritable (n : Int) : Prop := (Nat.toDigits 10 n.natAbs).length ≤ maxDigits

instance (n : Int) : Decidable (IsWritable n) :=
  inferInstanceAs (Decidable (_ ≤ _))

/-- The plain decimal spelling of a number: no leading zeros and no plus sign. It says how a number
is written if it can be; see `IsWritable`. -/
def spell (n : Int) : List Char :=
  if n < 0 then '-' :: Nat.toDigits 10 n.natAbs else Nat.toDigits 10 n.natAbs

/-- The plain decimal spelling of a number that can be written, as text. -/
def decimal (n : Int) : String := String.ofList (spell n)

@[simp]
theorem toList_decimal (n : Int) : (decimal n).toList = spell n := by
  simp [decimal]

end Numeral

end DynLisp

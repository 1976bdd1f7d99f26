import DynLisp.Numeral
import DynLisp.Text.Blank
import DynLisp.Text.Quoted

/-! # Settings

The prompt, the number of frames and the level of the log are set by variables that hold text. A
variable that is absent leaves the usual setting.
-/

namespace DynLisp

/-- The variables that hold settings. -/
structure Variables where
  prompt : Option String
  recursionLimit : Option String
  logLevel : Option String
  deriving Repr, DecidableEq

/-- How serious a record has to be to get into the log. -/
inductive LogLevel where
  | unset
  | debug
  | info
  | warning
  | error
  | critical
  deriving Repr, DecidableEq

namespace LogLevel

def severity : LogLevel → Nat
  | .unset => 0
  | .debug => 10
  | .info => 20
  | .warning => 30
  | .error => 40
  | .critical => 50

/-- The level of a name in capitals. -/
def ofName? (name : String) : Option LogLevel :=
  match name with
  | "NOTSET" => some .unset
  | "DEBUG" => some .debug
  | "INFO" => some .info
  | "WARN" | "WARNING" => some .warning
  | "ERROR" => some .error
  | "CRITICAL" | "FATAL" => some .critical
  | _ => none

/-- Whether records of level `level` get into a log of this level. -/
def admits (threshold level : LogLevel) : Bool := threshold.severity ≤ level.severity

end LogLevel

/-- Why a text is no number of frames. -/
inductive LimitFault where
  | notInteger (raw : String)
  | notPositive (n : Int)
  deriving Repr, DecidableEq

def LimitFault.message : LimitFault → String
  | .notInteger raw => "OWO_RECURSION_LIMIT must be an integer, got " ++ Text.quoted raw
  | .notPositive n => "OWO_RECURSION_LIMIT must be positive, got " ++ Numeral.decimal n

namespace Settings

/-- The prompt, which is taken as it is. -/
def prompt (vars : Variables) : String := vars.prompt.getD ">>> "

/-- The number of frames that a text asks for; a blank text asks for none. -/
def limitOf (raw : String) : Except LimitFault (Option Nat) :=
  match Text.strip raw.toList with
  | [] => .ok none
  | word =>
    match Numeral.ofGrouped? word with
    | none => .error (.notInteger raw)
    | some numeral =>
      if ¬numeral.IsReadable then .error (.notInteger raw)
      else if numeral.value ≤ 0 then .error (.notPositive numeral.value)
      else .ok (some numeral.value.toNat)

/-- The number of frames, if one is set. -/
def recursionLimit (vars : Variables) : Except LimitFault (Option Nat) :=
  match vars.recursionLimit with
  | none => .ok none
  | some raw => limitOf raw

/-- A character in upper case, as far as the names of levels need it: of all characters beyond
ASCII only the dotless i and the long s have an ASCII letter for their capital. -/
def capital (c : Char) : Char :=
  if c = 'ı' then 'I' else if c = 'ſ' then 'S' else c.toUpper

/-- The level that a text names, whatever its case; a text that names none is as good as no
text. -/
def levelOf (raw : String) : LogLevel :=
  (LogLevel.ofName? (String.ofList ((Text.strip raw.toList).map capital))).getD .warning

/-- The level of the log. -/
def logLevel (vars : Variables) : LogLevel :=
  (vars.logLevel.map levelOf).getD .warning

end Settings

end DynLisp

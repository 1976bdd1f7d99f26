import DynLisp.Repl
import DynLisp.Settings

/-! # Launching the interactive loop

The settings say how the loop runs, unless they ask for a number of frames that cannot be had.
Records are written to the log one to a line, if its level lets them through: all of them are of
level `debug`.
-/

namespace DynLisp

namespace Record

/-- The part of the program that a record comes from. -/
def origin : Record → String
  | .parsed _ => "owo.interpreter"
  | .called _ => "owo.evaluation.apply"
  | .failed _ => "owo.repl"

def message : Record → String
  | .parsed program => "parsed program: " ++ (Value.list program).inspect
  | .called call =>
    "calling " ++ call.name ++ " with " ++ Numeral.decimal call.arguments ++ " argument(s)"
  | .failed failure => "evaluation failed: " ++ failure.inspect

/-- The line of the log for a record. -/
def line (record : Record) : String := "DEBUG:" ++ record.origin ++ ":" ++ record.message ++ "\n"

end Record

/-- Why the loop does not start. -/
inductive LaunchFault where
  /-- No number of frames can be made out. -/
  | setting (cause : LimitFault)
  /-- There are fewer frames than the loop itself takes. -/
  | tooFewFrames
  /-- The number of frames does not fit in 32 bits. -/
  | tooManyFrames
  deriving Repr, DecidableEq

def LaunchFault.message : LaunchFault → String
  | .setting cause => cause.message
  | .tooFewFrames => Fault.recursionLimit.message
  | .tooManyFrames => "Python int too large to convert to C int"

/-- What a launch comes to. -/
structure Launch where
  level : LogLevel
  /-- The number of frames that the settings ask for. -/
  limit : Option Nat
  ending : Except LaunchFault Repl.Transcript

namespace Launch

/-- The least number of frames that the loop can start with. -/
def leastLimit : Nat := 16

/-- The greatest number of frames that there can be, which is the greatest signed 32-bit number. -/
def greatestLimit : Nat := 2147483647

/-- Whether a log of this level is written at all. -/
def tracing (level : LogLevel) : Bool := level.admits .debug

/-- The number of frames that settings ask for, if they ask for one. -/
def limit? (vars : Variables) : Option Nat :=
  (Settings.recursionLimit vars).toOption.join

/-- The number of frames under the given settings. -/
def frames (vars : Variables) : Except LaunchFault Nat :=
  match Settings.recursionLimit vars with
  | .error fault => .error (.setting fault)
  | .ok none => .ok Interpreter.defaultLimit
  | .ok (some limit) =>
    if limit < leastLimit then .error .tooFewFrames
    else if greatestLimit < limit then .error .tooManyFrames
    else .ok limit

/-- The console under the given settings. -/
def console (vars : Variables) : Except LaunchFault Console :=
  (frames vars).map fun limit =>
    { prompt := Settings.prompt vars
      interpreter := ⟨limit, tracing (Settings.logLevel vars)⟩ }

/-- Runs the loop on an input under the given settings. -/
def run (vars : Variables) (input : String) : Launch :=
  { level := Settings.logLevel vars
    limit := limit? vars
    ending := (console vars).map fun console => Repl.run console input (.ofFrame .empty) }

/-- The log of records at a level. -/
def logOf (level : LogLevel) (records : List Record) : String :=
  if tracing level then String.join (records.map Record.line) else ""

/-- What a launch prints. -/
def output (launch : Launch) : String :=
  match launch.ending with
  | .ok transcript => transcript.output
  | .error _ => ""

/-- What a launch writes to the log. -/
def log (launch : Launch) : String :=
  match launch.ending with
  | .ok transcript => logOf launch.level transcript.records
  | .error _ => ""

end Launch

end DynLisp

import DynLisp.Eval
import DynLisp.Program
import DynLisp.Value.Shape

/-! # Running programs

A program is read and evaluated as a whole in a scope. What it defines stays there for the next
program, also when it fails.
-/

namespace DynLisp

/-- Why a program gives no value. -/
inductive Failure where
  | unreadable (cause : ReadFault)
  | faulty (cause : Fault)
  deriving Repr

namespace Failure

/-- Whether a failure is beyond what the language can report, so that it ends the whole session:
this is so for a numeral with too many digits. -/
def isFatal : Failure → Bool
  | .unreadable (.word (.tooManyDigits _)) => true
  | _ => false

def message : Failure → String
  | .unreadable (.word (.tooManyDigits count)) => (WordFault.tooManyDigits count).message
  | .unreadable cause => "Parse error: " ++ cause.message
  | .faulty cause => cause.message

/-- The name of the kind of a failure, as log records give it. -/
def label : Failure → String
  | .unreadable _ => "OwoParseError"
  | .faulty cause => cause.label

/-- A failure with its kind, for log records. -/
def inspect (failure : Failure) : String :=
  failure.label ++ "(" ++ Text.quoted failure.message ++ ")"

end Failure

/-- What is worth a line in the log. -/
inductive Record where
  /-- A program has been read. -/
  | parsed (program : List Value)
  /-- The parameters of a function have been bound and its body is about to run. -/
  | called (call : Call)
  /-- A program that was typed in has failed. -/
  | failed (failure : Failure)
  deriving Repr

/-- What running a program gives. -/
structure Outcome where
  result : Except Failure Value
  scope : Scope
  records : List Record

/-- The conditions that programs run under. -/
structure Interpreter where
  /-- The number of frames that a program has. -/
  limit : Nat
  /-- Whether the log is written. Writing a program to the log takes a frame for each level of its
  nesting. -/
  tracing : Bool
  deriving Repr, DecidableEq

namespace Interpreter

/-- The number of frames unless another is set. -/
def defaultLimit : Nat := 1000

/-- The interpreter with the usual number of frames and without a log. -/
def standard : Interpreter := ⟨defaultLimit, false⟩

/-- Whether the frames suffice to display a value. -/
def canDisplay (interpreter : Interpreter) (v : Value) : Bool :=
  v.canDisplayIn interpreter.limit

/-- The text of a value, if the frames suffice to display it. -/
def display? (interpreter : Interpreter) (v : Value) : Option String :=
  v.displayIn? interpreter.limit

/-- The names that a frame binds, in order and with the texts of their values, if the frames of the
interpreter suffice to display them all. -/
def displayEntries? (interpreter : Interpreter) (frame : Frame) : Option (List (String × String)) :=
  frame.entries.mapM fun (name, v) => (interpreter.display? v).map (name, ·)

/-- Runs a program that has been read. -/
def runProgram (interpreter : Interpreter) (program : List Value) (scope : Scope) : Outcome :=
  if interpreter.tracing && interpreter.limit < (Shape.ofList program).depth then
    ⟨.error (.faulty .recursionLimit), scope, []⟩
  else
    let run := eval interpreter.limit (.list program) scope
    ⟨run.result.mapError .faulty, run.scope, .parsed program :: run.calls.map .called⟩

/-- Runs the program that a text is. -/
def run (interpreter : Interpreter) (source : String) (scope : Scope) : Outcome :=
  match Program.parse source with
  | .error fault => ⟨.error (.unreadable fault), scope, []⟩
  | .ok program => interpreter.runProgram program scope

/-- Runs programs one after another, each in the scope that the one before it leaves, whether it
failed or not. -/
def runAll (interpreter : Interpreter) : List String → Scope → List (Except Failure Value) × Scope
  | [], scope => ([], scope)
  | source :: rest, scope =>
    let outcome := interpreter.run source scope
    let (results, final) := interpreter.runAll rest outcome.scope
    (outcome.result :: results, final)

end Interpreter

end DynLisp

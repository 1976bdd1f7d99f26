import DynLisp.Interpreter
import DynLisp.Text.Blank

/-! # The interactive loop

Lines are read one by one after a prompt and run as programs in one scope. Blank lines are skipped,
and the line `exit` or the end of the input ends the loop. A program that fails has its message
printed and the loop goes on, unless the failure is fatal. The value of a program is printed in the
frames that programs have; a value nested too deeply for them ends the loop as well.
-/

namespace DynLisp

structure Console where
  prompt : String
  interpreter : Interpreter
  deriving Repr, DecidableEq

namespace Repl

/-- What ends the loop against the will of its user. -/
inductive Abort where
  /-- A program has failed, and the failure is fatal. -/
  | fatal (failure : Failure)
  /-- A program has a value that is nested too deeply to be displayed. -/
  | tooDeep
  deriving Repr

def Abort.message : Abort → String
  | .fatal failure => failure.message
  | .tooDeep => Fault.recursionLimit.message

/-- How the loop goes on after a line. -/
inductive Next where
  | more
  | stop
  | abort (cause : Abort)
  deriving Repr

/-- What one line leads to. -/
structure Turn where
  output : String
  records : List Record
  scope : Scope
  next : Next

/-- What the loop has printed and noted by its end. -/
structure Transcript where
  output : String
  records : List Record
  scope : Scope
  /-- What ended the loop before the input or its user did, if anything. -/
  aborted : Option Abort

/-- What is printed when the loop ends. -/
def farewell : String := "Exit..\n"

/-- Each text on a line of its own. -/
def onLines (texts : List String) : String := String.join (texts.map (· ++ "\n"))

/-- What is printed for a value: nothing for the absence of one. -/
def printed : Value → String
  | .void => ""
  | .lambda params body => onLines (Value.lambdaLines params body)
  | v => onLines [v.display]

/-- Runs the program on a line that is not blank. -/
def runLine (interpreter : Interpreter) (source : String) (scope : Scope) : Turn :=
  let outcome := interpreter.run source scope
  match outcome.result with
  | .ok v =>
    if interpreter.canDisplay v then ⟨printed v, outcome.records, outcome.scope, .more⟩
    else ⟨"", outcome.records, outcome.scope, .abort .tooDeep⟩
  | .error failure =>
    if failure.isFatal then ⟨"", outcome.records, outcome.scope, .abort (.fatal failure)⟩
    else
      ⟨onLines [failure.message], outcome.records ++ [.failed failure], outcome.scope, .more⟩

/-- What a line leads to. -/
def turn (interpreter : Interpreter) (line : String) (scope : Scope) : Turn :=
  let source := String.ofList (Text.strip line.toList)
  if source = "exit" then ⟨farewell, [], scope, .stop⟩
  else if source = "" then ⟨"", [], scope, .more⟩
  else runLine interpreter source scope

/-- The loop over the lines of an input. -/
def loop (console : Console) : List String → Scope → Transcript
  | [], scope => ⟨console.prompt ++ farewell, [], scope, none⟩
  | line :: rest, scope =>
    let turn := turn console.interpreter line scope
    let output := console.prompt ++ turn.output
    match turn.next with
    | .more =>
      let further := loop console rest turn.scope
      ⟨output ++ further.output, turn.records ++ further.records, further.scope, further.aborted⟩
    | .stop => ⟨output, turn.records, turn.scope, none⟩
    | .abort cause => ⟨output, turn.records, turn.scope, some cause⟩

/-- The loop on an input. -/
def run (console : Console) (input : String) (scope : Scope) : Transcript :=
  loop console ((Text.lines input.toList).map String.ofList) scope

end Repl

end DynLisp

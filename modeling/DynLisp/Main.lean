import DynLisp.Launch

/-! # The command line

Runs the interactive loop on the standard streams, a line at a time. The settings come from the
environment of the process, and the log goes to the error stream.
-/

namespace DynLisp.CommandLine

def readVariables : IO Variables := do
  return {
    prompt := ← IO.getEnv "OWO_PROMPT"
    recursionLimit := ← IO.getEnv "OWO_RECURSION_LIMIT"
    logLevel := ← IO.getEnv "OWO_LOG_LEVEL" }

/-- Goes on until the input ends, the loop is left or it is aborted; the result is the exit code. -/
def serve (console : Console) (level : LogLevel) : IO UInt32 := do
  let input ← IO.getStdin
  let output ← IO.getStdout
  let log ← IO.getStderr
  let mut scope := Scope.ofFrame .empty
  repeat
    output.putStr console.prompt
    output.flush
    let line ← input.getLine
    if line.isEmpty then
      output.putStr Repl.farewell
      return 0
    let turn := Repl.turn console.interpreter line scope
    log.putStr (Launch.logOf level turn.records)
    output.putStr turn.output
    match turn.next with
    | .more => scope := turn.scope
    | .stop => return 0
    | .abort cause =>
      log.putStrLn cause.message
      return 1
  return 0

end DynLisp.CommandLine

def main : IO UInt32 := do
  let vars ← DynLisp.CommandLine.readVariables
  match DynLisp.Launch.console vars with
  | .error fault =>
    IO.eprintln fault.message
    return 1
  | .ok console => DynLisp.CommandLine.serve console (DynLisp.Settings.logLevel vars)

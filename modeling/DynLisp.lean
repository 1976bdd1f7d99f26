import DynLisp.Text.Blank
import DynLisp.Text.Printable
import DynLisp.Text.Quoted
import DynLisp.Text.Digit
import DynLisp.Number
import DynLisp.Numeral
import DynLisp.Value.Basic
import DynLisp.Value.Equality
import DynLisp.Value.Shape
import DynLisp.Value.Display
import DynLisp.Value.Inspect
import DynLisp.Token
import DynLisp.Program
import DynLisp.Frame
import DynLisp.Scope
import DynLisp.Operator.Basic
import DynLisp.Fault
import DynLisp.Operator.Apply
import DynLisp.Eval.Run
import DynLisp.Eval.Form
import DynLisp.Eval
import DynLisp.Interpreter
import DynLisp.Store
import DynLisp.Session
import DynLisp.Settings
import DynLisp.Repl
import DynLisp.Launch
import DynLisp.Main
import DynLisp.Proofs.Evaluation.Rules
import DynLisp.Proofs.Evaluation.Adequacy
import DynLisp.Proofs.Reading.Numerals
import DynLisp.Proofs.Reading.RoundTrip
import DynLisp.Proofs.Evaluation.Extension
import DynLisp.Proofs.Running.Limits
import DynLisp.Proofs.Reading.Profile
import DynLisp.Proofs.Evaluation.Locality
import DynLisp.Proofs.Running.Environments
import DynLisp.Proofs.Evaluation.Bindings
import DynLisp.Proofs.Running.Domain
import DynLisp.Proofs.Evaluation.Agreement
import DynLisp.Proofs.Running.Dependence
import DynLisp.Proofs.Running.Sequences
import DynLisp.Proofs.Reading.Lines
import DynLisp.Proofs.Reading.Refusal
import DynLisp.Proofs.Reading.Scanning
import DynLisp.Proofs.Running.Dialogue
import DynLisp.Proofs.Running.Endings
import DynLisp.Proofs.Evaluation.Writes
import DynLisp.Proofs.Running.Calculations
import DynLisp.Proofs.Running.History
import DynLisp.Proofs.Evaluation.Reports
import DynLisp.Proofs.Reading.Descent
import DynLisp.Proofs.Running.Failures
import DynLisp.Proofs.Evaluation.Arithmetic
import DynLisp.Proofs.Evaluation.Symmetry
import DynLisp.Proofs.Evaluation.Names
import DynLisp.Proofs.Running.Parameters
import DynLisp.Proofs.Running.Presence
import DynLisp.Proofs.Running.Growth
import DynLisp.Proofs.Running.ReadBack
import DynLisp.Proofs.Evaluation.Nesting
import DynLisp.Proofs.Values.Sameness
import DynLisp.Proofs.Reading.Settings
import DynLisp.Proofs.Reading.Integers

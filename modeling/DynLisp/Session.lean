import DynLisp.Interpreter
import DynLisp.Store

/-! # Sessions

Work on a store of environments, one action after another, each in one environment. A program
reports by itself that the frames ran out; any other action is cut off.
-/

namespace DynLisp

/-- A name as an action may give it. All three kinds mean their text. -/
inductive Key where
  | text (content : String)
  | symbol (name : String)
  | number (n : Int)
  deriving Repr, DecidableEq

def Key.name : Key → String
  | .text content => content
  | .symbol name => name
  | .number n => Numeral.decimal n

/-- What can be done in an environment. -/
inductive Action where
  /-- Run the program that a text is. -/
  | run (source : String)
  /-- Evaluate an expression. -/
  | evaluate (expression : Value)
  /-- Apply an operator, given as a value, to operands that are to be evaluated. -/
  | operate (operator : Value) (operands : List Value)
  /-- Call the function that a name is bound to, even if the name is that of an operator. -/
  | call (name : Key) (operands : List Value)
  /-- Make an environment inside. -/
  | extend
  /-- Make an environment inside that binds parameters to values. -/
  | bind (params : List String) (args : List Value)
  | get (name : Key)
  | set (name : Key) (v : Value)
  | has (name : Key)
  | inspectFrame
  | inspectScope
  deriving Repr

/-- What an action is answered by. -/
inductive Reply where
  | value (v : Value)
  | failure (cause : Failure)
  /-- An environment has been made: its number and its frame. -/
  | made (number : Nat) (frame : Frame)
  | done
  | holds (b : Bool)
  | text (content : String)
  /-- The frames ran out in an action that does not report it as a failure. -/
  | exhausted
  deriving Repr

namespace Session

def replyOf : Except Failure Value → Reply
  | .ok v => .value v
  | .error failure => .failure failure

/-- The reply for what a computation of the evaluator by itself ends with. -/
def replyOfRun : Except Fault Value → Reply
  | .ok v => .value v
  | .error .recursionLimit => .exhausted
  | .error fault => .failure (.faulty fault)

/-- Runs a computation of the evaluator in environment `k`. -/
def compute (store : Store) (k : Nat) (m : Eval Value) : Option (Reply × Store) :=
  store.inScope k fun scope =>
    let run := m scope
    (replyOfRun run.result, run.scope)

/-- Does one action in environment `k`. There is no answer if there is no such environment. The text
of frames takes one frame of the interpreter for each level of nesting in what they bind. -/
def step (interpreter : Interpreter) (store : Store) (k : Nat) (action : Action) :
    Option (Reply × Store) :=
  let limit := interpreter.limit
  match action with
  | .run source =>
    store.inScope k fun scope =>
      let outcome := interpreter.run source scope
      (replyOf outcome.result, outcome.scope)
  | .evaluate expression => compute store k (eval limit expression)
  | .operate operator operands =>
    compute store k (Form.operation (limit - 1) (eval (limit - 1)) operator operands)
  | .call name operands =>
    compute store k (Form.call (eval (limit - 1)) (eval (limit - 2)) name.name operands)
  | .extend =>
    (store.frame? k).map fun _ => (.made store.size .empty, store.add k .empty)
  | .bind params args =>
    (store.frame? k).map fun _ =>
      match Frame.ofCall params args with
      | .ok frame => (.made store.size frame, store.add k frame)
      | .error fault => (.failure (.faulty fault), store)
  | .get name =>
    (store.frame? k).map fun _ => (.value ((store.value? k name.name).getD .null), store)
  | .set name v => (store.frame? k).map fun _ => (.done, store.set k name.name v)
  | .has name => (store.frame? k).map fun _ => (.holds (store.value? k name.name).isSome, store)
  | .inspectFrame =>
    (store.scope? k).map fun scope =>
      (if scope.frame.isWithin limit then .text scope.inspectFrame else .exhausted, store)
  | .inspectScope =>
    (store.scope? k).map fun scope =>
      (if scope.isWithin limit then .text scope.inspect else .exhausted, store)

end Session

end DynLisp

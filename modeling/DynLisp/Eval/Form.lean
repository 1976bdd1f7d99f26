import DynLisp.Eval.Run
import DynLisp.Operator.Apply

/-! # Forms

What a list means, given how its elements are evaluated. A list that begins with a symbol is an
operation, a definition, a conditional, a function or a call, in this order of precedence; any other
list is a sequence. `eval` evaluates the elements and `room` is the number of frames they have.
-/

namespace DynLisp

/-- What a symbol at the head of a list makes of the list. -/
inductive Head where
  | operation
  | definition
  | conditional
  | function
  | call
  deriving Repr, DecidableEq

def Head.ofName (name : String) : Head :=
  if (Operator.ofName? name).isSome then .operation
  else if name = "define" then .definition
  else if name = "if" then .conditional
  else if name = "lambda" then .function
  else .call

/-- The frame in which a function with these parameters runs on these arguments. Arguments beyond
the last parameter are ignored. -/
def Frame.ofCall (params : List String) (args : List Value) : Except Fault Frame :=
  if args.length < params.length then .error (.missingArguments params.length args.length)
  else .ok (.ofParameters params args)

namespace Form

def number (room : Nat) : Value → Eval Int
  | .number n => pure n
  | v => .reject room v .notNumber

/-- `(op left right)`: both operands are evaluated before either is looked at, and the operator is
looked at last. -/
def operation (room : Nat) (eval : Value → Eval Value) (op : Value) : List Value → Eval Value
  | [left, right] => do
    let left ← eval left
    let right ← eval right
    let a ← number room left
    let b ← number room right
    match Operator.ofValue? op with
    | none => .reject room op .unknownOperator
    | some op => .ofExcept (op.apply a b)
  | operands => .fail (.elementCount (operands.length + 1))

/-- `(define name value)`: the name is looked at before the value is evaluated. -/
def definition (room : Nat) (eval : Value → Eval Value) : List Value → Eval Value
  | [.symbol name, e] => do
    let v ← eval e
    .define name v
    return .void
  | [name, _] => .reject room name .notSymbol
  | parts => .fail (.elementCount (parts.length + 1))

/-- `(if condition yes no)`: only a truth value decides, and only the branch taken is
evaluated. -/
def conditional (room : Nat) (eval : Value → Eval Value) : List Value → Eval Value
  | [condition, yes, no] => do
    match ← eval condition with
    | .boolean true => eval yes
    | .boolean false => eval no
    | v => .reject room v .notBoolean
  | parts => .fail (.conditionalCount (parts.length + 1))

/-- The names of parameters. -/
def params (room : Nat) : List Value → Eval (List String)
  | [] => pure []
  | .symbol name :: rest => do
    let names ← params room rest
    return name :: names
  | v :: _ => .reject room v .paramNotSymbol

/-- `(lambda (params ...) (body ...))`: the body is kept as it is. -/
def function (room : Nat) : List Value → Eval Value
  | [.list parameters, body] => do
    let names ← params room parameters
    match body with
    | .list items => return .lambda names items
    | v => .reject room v .bodyNotList
  | [parameters, _] => .reject room parameters .paramsNotList
  | parts => .fail (.elementCount (parts.length + 1))

/-- The values of arguments, evaluated in order. -/
def arguments (eval : Value → Eval Value) : List Value → Eval (List Value)
  | [] => pure []
  | e :: rest => do
    let v ← eval e
    let vs ← arguments eval rest
    return v :: vs

/-- `(name argument ...)`: one argument for each parameter is evaluated in the scope of the call,
and the body runs inside that same scope. Further arguments are not evaluated. -/
def call (eval evalArgument : Value → Eval Value) (name : String) (operands : List Value) :
    Eval Value := do
  match ← Eval.value? name with
  | none => .fail (.undefinedFunction name)
  | some (.lambda params body) =>
    let args ← arguments evalArgument (operands.take params.length)
    let frame ← Eval.ofExcept (Frame.ofCall params args)
    Eval.record ⟨name, args.length⟩
    .within frame (eval (.list body))
  | some _ => .fail (.notFunction name)

/-- The values of the elements in order, without those that are no value. -/
def sequence (eval : Value → Eval Value) : List Value → Eval (List Value)
  | [] => pure []
  | e :: rest => do
    let v ← eval e
    let vs ← sequence eval rest
    return if v.isVoid then vs else v :: vs

/-- What a list means. -/
def list (room : Nat) (eval evalArgument : Value → Eval Value) : List Value → Eval Value
  | .symbol name :: parts =>
    match Head.ofName name with
    | .operation => operation room eval (.symbol name) parts
    | .definition => definition room eval parts
    | .conditional => conditional room eval parts
    | .function => function room parts
    | .call => call eval evalArgument name parts
  | items => do
    let values ← sequence eval items
    return .list values

end Form

end DynLisp

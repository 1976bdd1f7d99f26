import DynLisp.Scope
import DynLisp.Number
import DynLisp.Value.Display

/-! # Rules of evaluation

What an expression evaluates to in a scope, as rules that know of no limit on frames. An evaluation
ends with a value or with the report of an error, and it leaves a scope. The rules do not invoke the
evaluator, its table of operators or its faults. -/

namespace DynLisp

/-- An error as it is seen from outside. -/
structure Report where
  label : String
  message : String
  deriving Repr, DecidableEq

namespace Report

/-- A form has this many elements, the head included, and should not. -/
def elementCount (count : Nat) : Report :=
  ⟨"OwoInvalidArgumentCount", "Invalid number of arguments: " ++ Numeral.decimal count⟩

def notNumber (operand : Value) : Report :=
  ⟨"OwoInvalidArgumentType", "Invalid argument. argument must be an Number: " ++ operand.display⟩

end Report

/-- An evaluation has run out of frames, whatever the message says. -/
def IsExhausted {α : Type} (ending : Except Report α) : Prop :=
  ∃ report, ending = .error report ∧ report.label = "OwoRecursionError"

def operatorNames : List String := ["+", "-", "*", "/", "owo", "uwu", "Owo", "owO", "O_o", "o_O"]

/-- The heads of lists that are no calls. -/
def reservedNames : List String := operatorNames ++ ["define", "if", "lambda"]

/-- The exact integer that an arithmetic operator gives; division goes toward zero. -/
inductive Exact : String → Int → Int → Int → Prop where
  | add (a b) : Exact "+" a b (a + b)
  | sub (a b) : Exact "-" a b (a - b)
  | mul (a b) : Exact "*" a b (a * b)
  | div (a) {b} (h : b ≠ 0) : Exact "/" a b (a.tdiv b)

/-- The truth value that a comparison gives. -/
inductive Compares : String → Int → Int → Bool → Prop where
  | eq (a b) : Compares "owo" a b (decide (a = b))
  | ne (a b) : Compares "uwu" a b (decide (a ≠ b))
  | ge (a b) : Compares "Owo" a b (decide (a ≥ b))
  | le (a b) : Compares "owO" a b (decide (a ≤ b))
  | gt (a b) : Compares "O_o" a b (decide (a > b))
  | lt (a b) : Compares "o_O" a b (decide (a < b))

/-- An operator on two values. The left one is looked at first. -/
inductive Operates (op : String) : Value → Value → Except Report Value → Prop where
  | exact {a b n} (h : Exact op a b n) (hn : Number.InRange n) :
      Operates op (.number a) (.number b) (.ok (.number n))
  | overflow {a b n} (h : Exact op a b n) (hn : ¬ Number.InRange n) :
      Operates op (.number a) (.number b) (.error ⟨"OwoIntegerOverflow",
        "Integer overflow: " ++ Numeral.decimal a ++ " " ++ op ++ " " ++ Numeral.decimal b⟩)
  | byZero (a) (h : op = "/") :
      Operates op (.number a) (.number 0) (.error ⟨"OwoDivisionByZero",
        "Division by zero: " ++ Numeral.decimal a ++ " / 0"⟩)
  | compare {a b t} (h : Compares op a b t) :
      Operates op (.number a) (.number b) (.ok (.boolean t))
  | left {x} (y) (h : ∀ n, x ≠ .number n) : Operates op x y (.error (.notNumber x))
  | right (a) {y} (h : ∀ n, y ≠ .number n) :
      Operates op (.number a) y (.error (.notNumber y))

/-- What follows the head `lambda` makes a function, or the first thing wrong with it is reported:
the parameters come before the body. Nothing is evaluated. -/
inductive Builds : List Value → Except Report Value → Prop where
  | count {parts} (h : parts.length ≠ 2) :
      Builds parts (.error (.elementCount (parts.length + 1)))
  | paramsNotList {params} (body) (h : ∀ items, params ≠ .list items) :
      Builds [params, body] (.error ⟨"OwoInvalidLambda",
        "Invalid Lambda: parameters must be a list: " ++ params.display⟩)
  | paramNotSymbol (names : List String) {v} (rest body) (h : ∀ name, v ≠ .symbol name) :
      Builds [.list (names.map .symbol ++ v :: rest), body] (.error ⟨"OwoInvalidLambda",
        "Invalid Lambda: parameter must be an Symbol: " ++ v.display⟩)
  | bodyNotList (names : List String) {body} (h : ∀ items, body ≠ .list items) :
      Builds [.list (names.map .symbol), body] (.error ⟨"OwoInvalidLambda",
        "Invalid Lambda: body must be a list: " ++ body.display⟩)
  | function (names : List String) (body) :
      Builds [.list (names.map .symbol), .list body] (.ok (.lambda names body))

/-- The values that stand for themselves. -/
inductive Constant : Value → Prop where
  | number (n) : Constant (.number n)
  | boolean (b) : Constant (.boolean b)
  | void : Constant .void
  | null : Constant .null
  | text (s) : Constant (.text s)

mutual

/-- An expression in a scope ends as given and leaves the given scope. -/
inductive Evaluates : Value → Scope → Except Report Value → Scope → Prop where
  | constant {e} (scope) (h : Constant e) : Evaluates e scope (.ok e) scope
  | lambda (params body scope) : Evaluates (.lambda params body) scope (.ok .void) scope
  | symbol {name scope v} (h : scope.value? name = some v) :
      Evaluates (.symbol name) scope (.ok v) scope
  | undefinedSymbol {name scope} (h : scope.value? name = none) :
      Evaluates (.symbol name) scope
        (.error ⟨"OwoUndefinedSymbol", "Undefined symbol: " ++ name⟩) scope
  -- a list that no symbol heads, the empty one included
  | sequence {items scope vs scope'} (hs : ∀ name rest, items ≠ .symbol name :: rest)
      (h : EvaluatesAll items scope (.ok vs) scope') :
      Evaluates (.list items) scope (.ok (.list (vs.filter (! ·.isVoid)))) scope'
  | sequenceError {items scope report scope'} (hs : ∀ name rest, items ≠ .symbol name :: rest)
      (h : EvaluatesAll items scope (.error report) scope') :
      Evaluates (.list items) scope (.error report) scope'
  -- the ten operators
  | operationCount {op operands} (scope) (ho : op ∈ operatorNames) (h : operands.length ≠ 2) :
      Evaluates (.list (.symbol op :: operands)) scope
        (.error (.elementCount (operands.length + 1))) scope
  | operationLeft {op left scope report scope'} (right) (ho : op ∈ operatorNames)
      (h : Evaluates left scope (.error report) scope') :
      Evaluates (.list [.symbol op, left, right]) scope (.error report) scope'
  | operationRight {op left right scope x next report scope'} (ho : op ∈ operatorNames)
      (hl : Evaluates left scope (.ok x) next) (h : Evaluates right next (.error report) scope') :
      Evaluates (.list [.symbol op, left, right]) scope (.error report) scope'
  | operation {op left right scope x next y scope' ending} (ho : op ∈ operatorNames)
      (hl : Evaluates left scope (.ok x) next) (hr : Evaluates right next (.ok y) scope')
      (h : Operates op x y ending) :
      Evaluates (.list [.symbol op, left, right]) scope ending scope'
  -- definitions: the name is looked at before the value is evaluated
  | definitionCount {parts} (scope) (h : parts.length ≠ 2) :
      Evaluates (.list (.symbol "define" :: parts)) scope
        (.error (.elementCount (parts.length + 1))) scope
  | definitionName {name} (e scope) (h : ∀ key, name ≠ .symbol key) :
      Evaluates (.list [.symbol "define", name, e]) scope (.error ⟨"OwoInvalidArgumentType",
        "Invalid argument. argument must be an Symbol: " ++ name.display⟩) scope
  | definitionError {e scope report scope'} (name)
      (h : Evaluates e scope (.error report) scope') :
      Evaluates (.list [.symbol "define", .symbol name, e]) scope (.error report) scope'
  | definition {e scope v scope'} (name) (h : Evaluates e scope (.ok v) scope') :
      Evaluates (.list [.symbol "define", .symbol name, e]) scope (.ok .void)
        (scope'.define name v)
  -- conditionals: only the branch taken is evaluated
  | conditionalCount {parts} (scope) (h : parts.length ≠ 3) :
      Evaluates (.list (.symbol "if" :: parts)) scope (.error ⟨"OwoInvalidArgumentCount",
        "Invalid number of arguments for condition statement : " ++
          Numeral.decimal (parts.length + 1 : Nat)⟩) scope
  | conditionError {condition scope report scope'} (yes no)
      (h : Evaluates condition scope (.error report) scope') :
      Evaluates (.list [.symbol "if", condition, yes, no]) scope (.error report) scope'
  | conditionNotBoolean {condition scope v scope'} (yes no)
      (hc : Evaluates condition scope (.ok v) scope') (h : ∀ b, v ≠ .boolean b) :
      Evaluates (.list [.symbol "if", condition, yes, no]) scope (.error
        ⟨"OwoInvalidConditionType", "Condition must be a boolean. got: " ++ v.display⟩) scope'
  | conditionalYes {condition yes scope next ending scope'} (no)
      (hc : Evaluates condition scope (.ok (.boolean true)) next)
      (h : Evaluates yes next ending scope') :
      Evaluates (.list [.symbol "if", condition, yes, no]) scope ending scope'
  | conditionalNo {condition no scope next ending scope'} (yes)
      (hc : Evaluates condition scope (.ok (.boolean false)) next)
      (h : Evaluates no next ending scope') :
      Evaluates (.list [.symbol "if", condition, yes, no]) scope ending scope'
  | function {parts ending} (scope) (h : Builds parts ending) :
      Evaluates (.list (.symbol "lambda" :: parts)) scope ending scope
  -- calls: one argument for each parameter, in the scope of the call; the rest is not evaluated
  | undefinedFunction {name scope} (operands) (hn : name ∉ reservedNames)
      (h : scope.value? name = none) :
      Evaluates (.list (.symbol name :: operands)) scope
        (.error ⟨"OwoUndefinedFunction", "Undefined function: " ++ name⟩) scope
  | notFunction {name scope v} (operands) (hn : name ∉ reservedNames)
      (hv : scope.value? name = some v) (h : ∀ params body, v ≠ .lambda params body) :
      Evaluates (.list (.symbol name :: operands)) scope
        (.error ⟨"OwoInvalidFunction", "Invalid function: " ++ name⟩) scope
  | argumentError {name operands scope params body report scope'} (hn : name ∉ reservedNames)
      (hv : scope.value? name = some (.lambda params body))
      (h : EvaluatesAll (operands.take params.length) scope (.error report) scope') :
      Evaluates (.list (.symbol name :: operands)) scope (.error report) scope'
  | missingArguments {name operands scope params body args scope'} (hn : name ∉ reservedNames)
      (hv : scope.value? name = some (.lambda params body))
      (ha : EvaluatesAll (operands.take params.length) scope (.ok args) scope')
      (h : args.length < params.length) :
      Evaluates (.list (.symbol name :: operands)) scope (.error ⟨"OwoInvalidArgumentCount",
        "Invalid number of arguments: expected " ++ Numeral.decimal params.length ++ ", got " ++
          Numeral.decimal args.length⟩) scope'
  | call {name operands scope params body args next ending inner} (hn : name ∉ reservedNames)
      (hv : scope.value? name = some (.lambda params body))
      (ha : EvaluatesAll (operands.take params.length) scope (.ok args) next)
      (hl : args.length = params.length)
      (h : Evaluates (.list body) (next.enter (.ofParameters params args)) ending inner) :
      Evaluates (.list (.symbol name :: operands)) scope ending inner.leave

/-- Expressions are evaluated in order, each in the scope that the one before it leaves, up to the
first error. -/
inductive EvaluatesAll : List Value → Scope → Except Report (List Value) → Scope → Prop where
  | nil (scope) : EvaluatesAll [] scope (.ok []) scope
  | cons {e es scope v next vs scope'} (h : Evaluates e scope (.ok v) next)
      (hs : EvaluatesAll es next (.ok vs) scope') :
      EvaluatesAll (e :: es) scope (.ok (v :: vs)) scope'
  | head {e scope report scope'} (es) (h : Evaluates e scope (.error report) scope') :
      EvaluatesAll (e :: es) scope (.error report) scope'
  | tail {e es scope v next report scope'} (h : Evaluates e scope (.ok v) next)
      (hs : EvaluatesAll es next (.error report) scope') :
      EvaluatesAll (e :: es) scope (.error report) scope'

end

end DynLisp

import DynLisp.Eval
import DynLisp.Proofs.Evaluation.Computations

/-! # Equations of the forms

What each form is on the operands that it accepts and on those that it rejects. A form that works on
what it has evaluated is cut after the evaluation, and the part that follows has a name. -/

namespace DynLisp

/-! ### Heads -/

theorem Operator.ofName?_eq_some_iff {name : String} {op : Operator} :
    ofName? name = some op ↔ op.name = name := by
  constructor
  · intro h
    simpa using List.find?_some h
  · rintro rfl
    exact ofName?_name op

theorem mem_operatorNames_iff {name : String} :
    name ∈ operatorNames ↔ ∃ op : Operator, op.name = name := by
  have h : operatorNames = Operator.all.map Operator.name := rfl
  rw [h, List.mem_map]
  constructor
  · rintro ⟨op, _, rfl⟩
    exact ⟨op, rfl⟩
  · rintro ⟨op, rfl⟩
    exact ⟨op, List.mem_of_find?_eq_some (Operator.ofName?_name op), rfl⟩

theorem Operator.exists_ofName?_iff {name : String} :
    (ofName? name).isSome ↔ name ∈ operatorNames := by
  simp only [Option.isSome_iff_exists, ofName?_eq_some_iff, mem_operatorNames_iff]

theorem Head.ofName_operation {name : String} (h : name ∈ operatorNames) :
    ofName name = .operation := by
  simp [ofName, Operator.exists_ofName?_iff.mpr h]

theorem Head.ofName_call {name : String} (h : name ∉ reservedNames) : ofName name = .call := by
  simp only [reservedNames, List.mem_append, List.mem_cons, List.not_mem_nil, or_false,
    not_or] at h
  simp [ofName, mt Operator.exists_ofName?_iff.mp h.1, h.2]

variable {room : Nat} {ev evArgument : Value → Eval Value} {scope : Scope}

/-! ### Operations -/

theorem Form.number_eq_reject {v : Value} (h : ∀ n, v ≠ .number n) :
    number room v = .reject room v .notNumber := by
  cases v with
  | number n => exact absurd rfl (h n)
  | _ => rfl

/-- The part of an operation after both operands have been evaluated. -/
def Form.combine (room : Nat) (op : Value) (x y : Value) : Eval Value := do
  let a ← number room x
  let b ← number room y
  match Operator.ofValue? op with
  | none => .reject room op .unknownOperator
  | some op => .ofExcept (op.apply a b)

theorem Form.operation_pair (op left right : Value) :
    operation room ev op [left, right] = (do
      let x ← ev left
      let y ← ev right
      combine room op x y) := rfl

theorem Form.operation_other {op : Value} {operands : List Value} (h : operands.length ≠ 2) :
    operation room ev op operands = .fail (.elementCount (operands.length + 1)) := by
  unfold operation
  split
  · exact absurd rfl h
  · rfl

/-! ### Definitions and conditionals -/

theorem Form.definition_pair (name : String) (e : Value) :
    definition room ev [.symbol name, e] = (do
      let v ← ev e
      Eval.define name v
      return .void) := rfl

theorem Form.definition_name {name : Value} (e : Value) (h : ∀ key, name ≠ .symbol key) :
    definition room ev [name, e] = .reject room name .notSymbol := by
  cases name with
  | symbol key => exact absurd rfl (h key)
  | _ => rfl

theorem Form.definition_other {parts : List Value} (h : parts.length ≠ 2) :
    definition room ev parts = .fail (.elementCount (parts.length + 1)) := by
  unfold definition
  split
  · exact absurd rfl h
  · exact absurd rfl h
  · rfl

/-- The part of a conditional after its condition has been evaluated. -/
def Form.branch (room : Nat) (ev : Value → Eval Value) (yes no : Value) : Value → Eval Value
  | .boolean true => ev yes
  | .boolean false => ev no
  | v => .reject room v .notBoolean

theorem Form.conditional_triple (condition yes no : Value) :
    conditional room ev [condition, yes, no] = ev condition >>= branch room ev yes no := rfl

theorem Form.branch_other {v yes no : Value} (h : ∀ b, v ≠ .boolean b) :
    branch room ev yes no v = .reject room v .notBoolean := by
  cases v with
  | boolean b => exact absurd rfl (h b)
  | _ => rfl

theorem Form.conditional_other {parts : List Value} (h : parts.length ≠ 3) :
    conditional room ev parts = .fail (.conditionalCount (parts.length + 1)) := by
  unfold conditional
  split
  · exact absurd rfl h
  · rfl

/-! ### Functions -/

/-- A list of values has symbols only, or some first value that is no symbol. -/
theorem symbols_or_first_other (vs : List Value) :
    (∃ names : List String, vs = names.map .symbol) ∨
      ∃ (names : List String) (v : Value) (rest : List Value),
        vs = names.map .symbol ++ v :: rest ∧ ∀ name, v ≠ .symbol name := by
  induction vs with
  | nil => exact .inl ⟨[], rfl⟩
  | cons v vs ih =>
      by_cases hv : ∃ name, v = .symbol name
      · obtain ⟨name, rfl⟩ := hv
        rcases ih with ⟨names, rfl⟩ | ⟨names, w, rest, rfl, hw⟩
        · exact .inl ⟨name :: names, rfl⟩
        · exact .inr ⟨name :: names, w, rest, rfl, hw⟩
      · exact .inr ⟨[], v, vs, rfl, fun name h => hv ⟨name, h⟩⟩

theorem Form.params_symbols (names : List String) :
    params room (names.map .symbol) = pure names := by
  induction names with
  | nil => rfl
  | cons name names ih => simp [params, ih]

theorem Form.params_other (names : List String) {v : Value} (rest : List Value)
    (h : ∀ name, v ≠ .symbol name) :
    params room (names.map .symbol ++ v :: rest) = .reject room v .paramNotSymbol := by
  induction names with
  | nil =>
      cases v with
      | symbol name => exact absurd rfl (h name)
      | _ => rfl
  | cons name names ih =>
      simp only [List.map_cons, List.cons_append, params, ih, Eval.reject_bind]

/-- The part of a function form after the names of its parameters have been found. -/
def Form.close (room : Nat) (names : List String) : Value → Eval Value
  | .list items => return .lambda names items
  | v => .reject room v .bodyNotList

theorem Form.close_other {body : Value} (names : List String) (h : ∀ items, body ≠ .list items) :
    close room names body = .reject room body .bodyNotList := by
  cases body with
  | list items => exact absurd rfl (h items)
  | _ => rfl

theorem Form.function_list (items : List Value) (body : Value) :
    function room [.list items, body] = params room items >>= fun names => close room names body :=
  rfl

theorem Form.function_params {params : Value} (body : Value) (h : ∀ items, params ≠ .list items) :
    function room [params, body] = .reject room params .paramsNotList := by
  cases params with
  | list items => exact absurd rfl (h items)
  | _ => rfl

theorem Form.function_other {parts : List Value} (h : parts.length ≠ 2) :
    function room parts = .fail (.elementCount (parts.length + 1)) := by
  unfold function
  split
  · exact absurd rfl h
  · exact absurd rfl h
  · rfl

/-! ### Calls and sequences -/

/-- The part of a call after its function has been found. -/
def Form.invoke (ev evArgument : Value → Eval Value) (name : String) (params : List String)
    (body operands : List Value) : Eval Value := do
  let args ← arguments evArgument (operands.take params.length)
  let frame ← Eval.ofExcept (Frame.ofCall params args)
  Eval.record ⟨name, args.length⟩
  .within frame (ev (.list body))

theorem Form.call_undefined {name : String} {operands : List Value}
    (h : scope.value? name = none) :
    call ev evArgument name operands scope = Eval.fail (.undefinedFunction name) scope := by
  rw [call, Eval.value?_bind, h]

theorem Form.call_function {name : String} {operands : List Value} {params : List String}
    {body : List Value} (h : scope.value? name = some (.lambda params body)) :
    call ev evArgument name operands scope =
      invoke ev evArgument name params body operands scope := by
  rw [call, Eval.value?_bind, h]
  rfl

theorem Form.call_other {name : String} {operands : List Value} {v : Value}
    (h : scope.value? name = some v) (hv : ∀ params body, v ≠ .lambda params body) :
    call ev evArgument name operands scope = Eval.fail (.notFunction name) scope := by
  rw [call, Eval.value?_bind, h]
  cases v with
  | lambda params body => exact absurd rfl (hv params body)
  | _ => rfl

theorem Form.arguments_cons (ev : Value → Eval Value) (e : Value) (es : List Value) :
    arguments ev (e :: es) = ev e >>= fun v => (v :: ·) <$> arguments ev es := by
  simp only [arguments, map_eq_pure_bind]

/-- A sequence evaluates its elements as a call does its arguments, and drops what is no value. -/
theorem Form.sequence_eq (eval : Value → Eval Value) (es : List Value) :
    sequence eval es = (do
      let vs ← arguments eval es
      return vs.filter (! ·.isVoid)) := by
  induction es with
  | nil => simp [sequence, arguments]
  | cons e es ih =>
      simp only [sequence, arguments, ih, bind_assoc, pure_bind, List.filter_cons]
      refine bind_congr fun v => bind_congr fun vs => ?_
      cases v.isVoid <;> rfl

/-! ### Lists and atoms -/

theorem Form.list_operation {op : String} (parts : List Value) (h : op ∈ operatorNames) :
    list room ev evArgument (.symbol op :: parts) = operation room ev (.symbol op) parts := by
  simp only [list, Head.ofName_operation h]

theorem Form.list_definition (parts : List Value) :
    list room ev evArgument (.symbol "define" :: parts) = definition room ev parts := rfl

theorem Form.list_conditional (parts : List Value) :
    list room ev evArgument (.symbol "if" :: parts) = conditional room ev parts := rfl

theorem Form.list_call {name : String} (parts : List Value) (h : name ∉ reservedNames) :
    list room ev evArgument (.symbol name :: parts) = call ev evArgument name parts := by
  simp only [list, Head.ofName_call h]

theorem Form.list_sequence {items : List Value} (h : ∀ name rest, items ≠ .symbol name :: rest) :
    list room ev evArgument items = (do return Value.list (← sequence ev items)) := by
  unfold list
  split
  · exact absurd rfl (h _ _)
  · rfl

/-- A list that is evaluated has two frames for itself. -/
theorem exists_limit_eq {limit : Nat} {items : List Value} {scope : Scope}
    (h : (eval limit (.list items) scope).result ≠ .error .recursionLimit) :
    ∃ n, limit = n + 2 := by
  match limit with
  | 0 => exact absurd (by rw [eval_zero]; rfl) h
  | 1 => exact absurd (by rw [eval_one_list]; rfl) h
  | n + 2 => exact ⟨n, rfl⟩

theorem eval_constant {e : Value} (h : Constant e) (n : Nat) : eval (n + 1) e = pure e := by
  cases h <;> simp [eval]

theorem eval_lambda (n : Nat) (params : List String) (body : List Value) :
    eval (n + 1) (.lambda params body) = pure .void := by
  simp [eval]

theorem eval_symbol_of_some {name : String} {v : Value} (n : Nat)
    (h : scope.value? name = some v) :
    eval (n + 1) (.symbol name) scope = (pure v : Eval Value) scope := by
  rw [eval, Eval.value?_bind, h]

theorem eval_symbol_of_none {name : String} (n : Nat) (h : scope.value? name = none) :
    eval (n + 1) (.symbol name) scope = Eval.fail (.undefinedSymbol name) scope := by
  rw [eval, Eval.value?_bind, h]

end DynLisp

import DynLisp.Proofs.Evaluation.Forms
import DynLisp.Proofs.Evaluation.Operators
import Mathlib.Data.List.Basic

/-! # What the evaluator settles on follows from the rules

Each form follows the rules if what evaluates its elements does, so the evaluator does by induction
on the number of frames. -/

namespace DynLisp

/-- Whatever an evaluator settles on follows from the rules. -/
def Sound (ev : Value → Eval Value) : Prop :=
  ∀ e scope ending scope', (ev e scope).Settles ending scope' → Evaluates e scope ending scope'

variable {room : Nat} {ev evArgument : Value → Eval Value} {scope scope' : Scope}
  {ending : Except Report Value}

theorem Fault.report_notNumber (v : Value) : (notNumber v).report = .notNumber v := rfl

/-- The operands are combined as the rules say, if there is room to display one that is no
number. -/
theorem Form.settles_combine {op : String} {x y : Value} (ho : op ∈ operatorNames) :
    (combine room (.symbol op) x y scope).Settles ending scope' ↔
      (((∀ n, x ≠ .number n) → x.displayFrames ≤ room) ∧
        (∀ a, x = .number a → (∀ n, y ≠ .number n) → y.displayFrames ≤ room)) ∧
      Operates op x y ending ∧ scope' = scope := by
  obtain ⟨operator, rfl⟩ := mem_operatorNames_iff.mp ho
  by_cases hx : ∃ a, x = .number a
  · obtain ⟨a, rfl⟩ := hx
    by_cases hy : ∃ b, y = .number b
    · obtain ⟨b, rfl⟩ := hy
      simp [combine, number, Operator.ofValue?, operates_iff, operator.apply_ne_exhaustion]
    · have hn : ∀ n, y ≠ .number n := fun n h => hy ⟨n, h⟩
      simp [combine, number, operates_right_iff hn, hn, Fault.report_notNumber]
  · have hn : ∀ n, x ≠ .number n := fun n h => hx ⟨n, h⟩
    simp [combine, number_eq_reject hn, operates_left_iff hn, hn, Fault.report_notNumber]

theorem Form.operation_sound (hev : Sound ev) {op : String} {operands : List Value}
    (ho : op ∈ operatorNames)
    (h : (operation room ev (.symbol op) operands scope).Settles ending scope') :
    Evaluates (.list (.symbol op :: operands)) scope ending scope' := by
  by_cases hl : operands.length = 2
  · obtain ⟨left, right, rfl⟩ := List.length_eq_two.mp hl
    rw [operation_pair, Eval.settles_bind] at h
    rcases h with ⟨report, h, rfl⟩ | ⟨x, next, hx, h⟩
    · exact .operationLeft right ho (hev _ _ _ _ h)
    rcases Eval.settles_bind.mp h with ⟨report, hy, rfl⟩ | ⟨y, last, hy, h⟩
    · exact .operationRight ho (hev _ _ _ _ hx) (hev _ _ _ _ hy)
    obtain ⟨_, hop, rfl⟩ := (settles_combine ho).mp h
    exact .operation ho (hev _ _ _ _ hx) (hev _ _ _ _ hy) hop
  · rw [operation_other hl] at h
    obtain ⟨_, rfl, rfl⟩ := Eval.settles_fail.mp h
    exact .operationCount scope' ho hl

theorem Form.definition_sound (hev : Sound ev) {parts : List Value}
    (h : (definition room ev parts scope).Settles ending scope') :
    Evaluates (.list (.symbol "define" :: parts)) scope ending scope' := by
  by_cases hl : parts.length = 2
  · obtain ⟨key, e, rfl⟩ := List.length_eq_two.mp hl
    by_cases hk : ∀ name, key ≠ .symbol name
    · rw [definition_name e hk] at h
      obtain ⟨_, rfl, rfl⟩ := Eval.settles_reject.mp h
      exact .definitionName e _ hk
    obtain ⟨name, rfl⟩ := not_forall_not.mp hk
    rw [definition_pair, Eval.settles_bind] at h
    rcases h with ⟨report, he, rfl⟩ | ⟨v, next, hv, h⟩
    · exact .definitionError name (hev _ _ _ _ he)
    obtain ⟨rfl, rfl⟩ : ending = .ok .void ∧ scope' = next.define name v := by
      simpa [and_comm] using h
    exact .definition name (hev _ _ _ _ hv)
  · rw [definition_other hl] at h
    obtain ⟨_, rfl, rfl⟩ := Eval.settles_fail.mp h
    exact .definitionCount _ hl

theorem Form.conditional_sound (hev : Sound ev) {parts : List Value}
    (h : (conditional room ev parts scope).Settles ending scope') :
    Evaluates (.list (.symbol "if" :: parts)) scope ending scope' := by
  by_cases hl : parts.length = 3
  · obtain ⟨condition, yes, no, rfl⟩ := List.length_eq_three.mp hl
    rw [conditional_triple, Eval.settles_bind] at h
    rcases h with ⟨report, hc, rfl⟩ | ⟨v, next, hc, h⟩
    · exact .conditionError yes no (hev _ _ _ _ hc)
    by_cases hv : ∀ b, v ≠ .boolean b
    · rw [branch_other hv] at h
      obtain ⟨_, rfl, rfl⟩ := Eval.settles_reject.mp h
      exact .conditionNotBoolean yes no (hev _ _ _ _ hc) hv
    obtain ⟨b, rfl⟩ := not_forall_not.mp hv
    cases b with
    | true => exact .conditionalYes no (hev _ _ _ _ hc) (hev _ _ _ _ h)
    | false => exact .conditionalNo yes (hev _ _ _ _ hc) (hev _ _ _ _ h)
  · rw [conditional_other hl] at h
    obtain ⟨_, rfl, rfl⟩ := Eval.settles_fail.mp h
    exact .conditionalCount _ hl

theorem Form.function_sound {parts : List Value}
    (h : (function room parts scope).Settles ending scope') :
    Builds parts ending ∧ scope' = scope := by
  by_cases hl : parts.length = 2
  · obtain ⟨params, body, rfl⟩ := List.length_eq_two.mp hl
    by_cases hp : ∀ items, params ≠ .list items
    · rw [function_params body hp] at h
      obtain ⟨_, rfl, rfl⟩ := Eval.settles_reject.mp h
      exact ⟨.paramsNotList body hp, rfl⟩
    obtain ⟨items, rfl⟩ := not_forall_not.mp hp
    rw [function_list] at h
    rcases symbols_or_first_other items with ⟨names, rfl⟩ | ⟨names, v, rest, rfl, hv⟩
    · rw [params_symbols, pure_bind] at h
      by_cases hb : ∀ items, body ≠ .list items
      · rw [close_other names hb] at h
        obtain ⟨_, rfl, rfl⟩ := Eval.settles_reject.mp h
        exact ⟨.bodyNotList names hb, rfl⟩
      obtain ⟨items, rfl⟩ := not_forall_not.mp hb
      obtain ⟨rfl, rfl⟩ := Eval.settles_pure.mp h
      exact ⟨.function names items, rfl⟩
    · rw [params_other names rest hv, Eval.reject_bind] at h
      obtain ⟨_, rfl, rfl⟩ := Eval.settles_reject.mp h
      exact ⟨.paramNotSymbol names rest body hv, rfl⟩
  · rw [function_other hl] at h
    obtain ⟨_, rfl, rfl⟩ := Eval.settles_fail.mp h
    exact ⟨.count hl, rfl⟩

theorem Form.arguments_sound (hev : Sound ev) {es : List Value}
    {ending : Except Report (List Value)}
    (h : (arguments ev es scope).Settles ending scope') : EvaluatesAll es scope ending scope' := by
  induction es generalizing scope ending with
  | nil =>
      obtain ⟨rfl, rfl⟩ := Eval.settles_pure.mp h
      exact .nil scope'
  | cons e es ih =>
      simp only [arguments, Eval.settles_bind, Eval.settles_pure] at h
      rcases h with ⟨report, h, rfl⟩ | ⟨v, next, hv, ⟨report, h, rfl⟩ | ⟨vs, last, hvs, rfl, rfl⟩⟩
      · exact .head es (hev _ _ _ _ h)
      · exact .tail (hev _ _ _ _ hv) (ih h)
      · exact .cons (hev _ _ _ _ hv) (ih hvs)

theorem Form.sequence_sound (hev : Sound ev) {items : List Value}
    (hs : ∀ name rest, items ≠ .symbol name :: rest)
    (h : ((do return Value.list (← sequence ev items)) scope).Settles ending scope') :
    Evaluates (.list items) scope ending scope' := by
  simp only [sequence_eq, bind_assoc, pure_bind, Eval.settles_bind, Eval.settles_pure] at h
  rcases h with ⟨report, h, rfl⟩ | ⟨vs, next, hvs, rfl, rfl⟩
  · exact .sequenceError hs (arguments_sound hev h)
  · exact .sequence hs (arguments_sound hev hvs)

theorem EvaluatesAll.length_eq {es vs : List Value} (h : EvaluatesAll es scope (.ok vs) scope') :
    vs.length = es.length := by
  induction es generalizing scope vs with
  | nil => cases h; rfl
  | cons e es ih =>
      cases h with
      | cons _ hs => simp [ih hs]

/-- A function is invoked once its arguments have been evaluated and if they suffice. -/
theorem Form.settles_invoke {name : String} {params : List String} {body operands : List Value} :
    (invoke ev evArgument name params body operands scope).Settles ending scope' ↔
      (∃ report, (arguments evArgument (operands.take params.length) scope).Settles
        (.error report) scope' ∧ ending = .error report) ∨
      ∃ args next, (arguments evArgument (operands.take params.length) scope).Settles
        (.ok args) next ∧
        ((args.length < params.length ∧
          ending = .error (Fault.missingArguments params.length args.length).report ∧
          scope' = next) ∨
        (¬ args.length < params.length ∧
          ∃ inner, (ev (.list body) (next.enter (.ofParameters params args))).Settles ending inner ∧
            scope' = inner.leave)) := by
  rw [invoke, Eval.settles_bind]
  refine or_congr_right <| exists_congr fun args => exists_congr fun next =>
    and_congr_right fun _ => ?_
  by_cases hl : args.length < params.length
  · simp [Frame.ofCall, hl, Eval.ofExcept_error]
  · simp [Frame.ofCall, hl, Eval.ofExcept_ok]

theorem Form.call_sound (hev : Sound ev) (harg : Sound evArgument) {name : String}
    {operands : List Value} (hn : name ∉ reservedNames)
    (h : (call ev evArgument name operands scope).Settles ending scope') :
    Evaluates (.list (.symbol name :: operands)) scope ending scope' := by
  cases hv : scope.value? name with
  | none =>
      rw [call_undefined hv] at h
      obtain ⟨_, rfl, rfl⟩ := Eval.settles_fail.mp h
      exact .undefinedFunction operands hn hv
  | some v =>
      by_cases hf : ∃ params body, v = .lambda params body
      · obtain ⟨params, body, rfl⟩ := hf
        rw [call_function hv, settles_invoke] at h
        rcases h with ⟨report, ha, rfl⟩ |
          ⟨args, next, ha, ⟨hl, rfl, rfl⟩ | ⟨hl, inner, hb, rfl⟩⟩
        · exact .argumentError hn hv (arguments_sound harg ha)
        · exact .missingArguments hn hv (arguments_sound harg ha) hl
        · have hargs := arguments_sound harg ha
          have hle : args.length ≤ params.length := by
            simpa only [hargs.length_eq] using List.length_take_le _ _
          exact .call hn hv hargs (by omega) (hev _ _ _ _ hb)
      · have hv' : ∀ params body, v ≠ .lambda params body := by
          intro params body he
          exact hf ⟨params, body, he⟩
        rw [call_other hv hv'] at h
        obtain ⟨_, rfl, rfl⟩ := Eval.settles_fail.mp h
        exact .notFunction operands hn hv hv'

theorem Form.list_sound (hev : Sound ev) (harg : Sound evArgument) {items : List Value}
    (h : (list room ev evArgument items scope).Settles ending scope') :
    Evaluates (.list items) scope ending scope' := by
  by_cases hs : ∃ name rest, items = .symbol name :: rest
  · obtain ⟨name, parts, rfl⟩ := hs
    by_cases ho : name ∈ operatorNames
    · rw [list_operation parts ho] at h
      exact operation_sound hev ho h
    by_cases hn : name ∈ ["define", "if", "lambda"]
    · simp only [List.mem_cons, List.not_mem_nil, or_false] at hn
      rcases hn with rfl | rfl | rfl
      · exact definition_sound hev h
      · exact conditional_sound hev h
      · obtain ⟨hb, rfl⟩ := function_sound h
        exact .function _ hb
    · have hr : name ∉ reservedNames := by
        intro hr
        exact (List.mem_append.mp hr).elim ho hn
      rw [list_call parts hr] at h
      exact call_sound hev harg hr h
  · have hs' : ∀ name rest, items ≠ .symbol name :: rest := by
      intro name rest he
      exact hs ⟨name, rest, he⟩
    rw [list_sequence hs'] at h
    exact sequence_sound hev hs' h

theorem eval_sound (limit : Nat) : Sound (eval limit) := by
  induction limit using Nat.strongRecOn with
  | ind limit ih =>
      intro e scope ending scope' h
      cases limit with
      | zero => simp [eval_zero] at h
      | succ limit =>
          -- only a list is evaluated with fewer frames
          have hconstant : Constant e → Evaluates e scope ending scope' := by
            intro he
            rw [eval_constant he] at h
            obtain ⟨rfl, rfl⟩ := Eval.settles_pure.mp h
            exact .constant _ he
          cases e with
          | list items =>
              cases limit with
              | zero => simp [eval_one_list] at h
              | succ n =>
                  rw [eval_list] at h
                  exact Form.list_sound (ih n (by omega)) (ih (n - 1) (by omega)) h
          | symbol name =>
              cases hv : scope.value? name with
              | none =>
                  rw [eval_symbol_of_none _ hv] at h
                  obtain ⟨_, rfl, rfl⟩ := Eval.settles_fail.mp h
                  exact .undefinedSymbol hv
              | some v =>
                  rw [eval_symbol_of_some _ hv] at h
                  obtain ⟨rfl, rfl⟩ := Eval.settles_pure.mp h
                  exact .symbol hv
          | lambda params body =>
              rw [eval_lambda] at h
              obtain ⟨rfl, rfl⟩ := Eval.settles_pure.mp h
              exact .lambda params body _
          | number n => exact hconstant (.number n)
          | boolean b => exact hconstant (.boolean b)
          | void => exact hconstant .void
          | null => exact hconstant .null
          | text s => exact hconstant (.text s)

end DynLisp

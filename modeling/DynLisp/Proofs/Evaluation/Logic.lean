import DynLisp.Proofs.Evaluation.Forms
import Mathlib.Data.List.Basic

/-! # Properties of evaluation

A property of computations that every way to build them keeps is a property of evaluation. What has
to be shown for one property is collected in a structure; that it then holds of each form and of the
evaluator is proved here once for all of them. -/

namespace DynLisp

/-- A property of computations, of the expressions that are evaluated and of the values that come
out. `known` is what every evaluation is known to satisfy before. -/
structure Logic (known : Eval Value → Prop) where
  code : Value → Prop
  value : Value → Prop
  /-- A computation has the property, and its result, if any, satisfies a condition. -/
  holds : {α : Type} → (α → Prop) → Eval α → Prop
  -- the ways to build computations
  pure {α : Type} {Q : α → Prop} {a : α} (h : Q a) : holds Q (pure a)
  fail {α : Type} {Q : α → Prop} (fault : Fault) : holds Q (.fail fault)
  bind {α β : Type} {P : α → Prop} {Q : β → Prop} {m : Eval α} {f : α → Eval β}
    (hm : holds P m) (hf : ∀ a, P a → holds Q (f a)) : holds Q (m >>= f)
  lookup {name : String} (h : code (.symbol name)) :
    holds (fun found => ∀ v, found = some v → value v) (Eval.value? name)
  define {name : String} {e v : Value}
    (h : code (.list [.symbol "define", .symbol name, e])) (hv : value v) :
    holds (fun _ => True) (Eval.define name v)
  record (call : Call) : holds (fun _ => True) (Eval.record call)
  invoke {params : List String} {body args : List Value} {m : Eval Value}
    (hf : value (.lambda params body)) (ha : ∀ v ∈ args, value v) (hk : known m)
    (hm : code (.list body) → holds value m) : holds value (.within (.ofParameters params args) m)
  -- the elements of a list that are evaluated
  head {v : Value} {vs : List Value} (h : code (.list (v :: vs)))
    (hv : ∀ name ∈ reservedNames, v ≠ .symbol name) : code v
  tail {v : Value} {vs : List Value} (h : code (.list (v :: vs))) (hv : v ≠ .symbol "lambda") :
    ∀ w ∈ vs, code w
  -- the values that forms give
  constant {e : Value} (h : code e) (hc : Constant e) : value e
  number {n : Int} (h : Number.InRange n) : value (.number n)
  boolean (b : Bool) : value (.boolean b)
  void : value .void
  list {vs : List Value} (h : ∀ v ∈ vs, value v) (hv : .void ∉ vs) : value (.list vs)
  function {names : List String} {body : List Value}
    (h : code (.list [.symbol "lambda", .list (names.map .symbol), .list body])) :
    value (.lambda names body)

/-- On numbers an operator gives a number or a truth value. -/
theorem Operator.apply_eq_ok {op : Operator} {a b : Int} {v : Value} (h : op.apply a b = .ok v) :
    (∃ n, v = .number n ∧ Number.InRange n) ∨ ∃ t, v = .boolean t := by
  rcases op with op | op
  · cases hr : op.result? a b with
    | none => simp [apply, hr] at h
    | some n =>
        by_cases hn : Number.InRange n
        · obtain rfl : .number n = v := by simpa [apply, hr, hn] using h
          exact .inl ⟨n, rfl, hn⟩
        · simp [apply, hr, hn] at h
  · obtain rfl : .boolean (op.holds a b) = v := by simpa [apply] using h
    exact .inr ⟨_, rfl⟩

theorem Frame.ofCall_eq_ok {params : List String} {args : List Value} {frame : Frame}
    (h : ofCall params args = .ok frame) : frame = ofParameters params args := by
  by_cases hl : args.length < params.length
  · simp [ofCall, hl] at h
  · simpa [ofCall, hl, eq_comm] using h

namespace Logic

variable {known : Eval Value → Prop} (L : Logic known)

theorem holds_reject {α : Type} {Q : α → Prop} (room : Nat) (v : Value)
    (cause : Value → Fault) : L.holds Q (.reject room v cause) := by
  unfold Eval.reject
  split
  · exact L.fail _
  · exact L.fail _

theorem holds_ofExcept {α : Type} {Q : α → Prop} {result : Except Fault α}
    (h : ∀ a, result = .ok a → Q a) : L.holds Q (.ofExcept result) := by
  cases result with
  | error fault => exact L.fail fault
  | ok a => exact L.pure (h a rfl)

variable {room : Nat} {ev evArgument : Value → Eval Value}
  (hev : ∀ e, L.code e → L.holds L.value (ev e))
  (harg : ∀ e, L.code e → L.holds L.value (evArgument e))

/-! ### Forms -/

theorem holds_number (v : Value) : L.holds (fun _ => True) (Form.number room v) := by
  cases v with
  | number n => exact L.pure trivial
  | _ => exact L.holds_reject _ _ _

theorem holds_combine (op x y : Value) : L.holds L.value (Form.combine room op x y) := by
  refine L.bind (L.holds_number x) fun a _ => L.bind (L.holds_number y) fun b _ => ?_
  cases Operator.ofValue? op with
  | none => exact L.holds_reject _ _ _
  | some op =>
      refine L.holds_ofExcept fun v hv => ?_
      rcases Operator.apply_eq_ok hv with ⟨n, rfl, hn⟩ | ⟨t, rfl⟩
      · exact L.number hn
      · exact L.boolean t

include hev in
theorem holds_operation (op : Value) {operands : List Value} (h : ∀ e ∈ operands, L.code e) :
    L.holds L.value (Form.operation room ev op operands) := by
  by_cases hl : operands.length = 2
  · obtain ⟨left, right, rfl⟩ := List.length_eq_two.mp hl
    rw [Form.operation_pair]
    refine L.bind (hev left (h left (by simp))) fun x _ => ?_
    exact L.bind (hev right (h right (by simp))) fun y _ => L.holds_combine op x y
  · rw [Form.operation_other hl]
    exact L.fail _

include hev in
theorem holds_definition {parts : List Value} (h : L.code (.list (.symbol "define" :: parts))) :
    L.holds L.value (Form.definition room ev parts) := by
  by_cases hl : parts.length = 2
  · obtain ⟨key, e, rfl⟩ := List.length_eq_two.mp hl
    by_cases hk : ∃ name, key = .symbol name
    · obtain ⟨name, rfl⟩ := hk
      have he : L.code e := L.tail h (by simp) e (by simp)
      rw [Form.definition_pair]
      exact L.bind (hev e he) fun v hv => L.bind (L.define h hv) fun _ _ => L.pure L.void
    · rw [Form.definition_name e fun name he => hk ⟨name, he⟩]
      exact L.holds_reject _ _ _
  · rw [Form.definition_other hl]
    exact L.fail _

include hev in
theorem holds_conditional {parts : List Value} (h : ∀ e ∈ parts, L.code e) :
    L.holds L.value (Form.conditional room ev parts) := by
  by_cases hl : parts.length = 3
  · obtain ⟨condition, yes, no, rfl⟩ := List.length_eq_three.mp hl
    rw [Form.conditional_triple]
    refine L.bind (hev condition (h condition (by simp))) fun v _ => ?_
    cases v with
    | boolean b =>
        cases b with
        | true => exact hev yes (h yes (by simp))
        | false => exact hev no (h no (by simp))
    | _ => exact L.holds_reject _ _ _
  · rw [Form.conditional_other hl]
    exact L.fail _

theorem holds_function {parts : List Value} (h : L.code (.list (.symbol "lambda" :: parts))) :
    L.holds L.value (Form.function room parts) := by
  by_cases hl : parts.length = 2
  · obtain ⟨params, body, rfl⟩ := List.length_eq_two.mp hl
    by_cases hp : ∃ items, params = .list items
    · obtain ⟨items, rfl⟩ := hp
      rw [Form.function_list]
      rcases symbols_or_first_other items with ⟨names, rfl⟩ | ⟨names, v, rest, rfl, hv⟩
      · rw [Form.params_symbols, pure_bind]
        cases body with
        | list body => exact L.pure (L.function h)
        | _ => exact L.holds_reject _ _ _
      · rw [Form.params_other names rest hv, Eval.reject_bind]
        exact L.holds_reject _ _ _
    · rw [Form.function_params body fun items he => hp ⟨items, he⟩]
      exact L.holds_reject _ _ _
  · rw [Form.function_other hl]
    exact L.fail _

include hev in
theorem holds_arguments {es : List Value} (h : ∀ e ∈ es, L.code e) :
    L.holds (fun vs => ∀ v ∈ vs, L.value v) (Form.arguments ev es) := by
  induction es with
  | nil => exact L.pure (by simp)
  | cons e es ih =>
      obtain ⟨he, hes⟩ := List.forall_mem_cons.mp h
      refine L.bind (hev e he) fun v hv => L.bind (ih hes) fun vs hvs => L.pure ?_
      exact List.forall_mem_cons.mpr ⟨hv, hvs⟩

include hev harg in
theorem holds_call (hk : ∀ e, known (ev e)) {name : String} {operands : List Value}
    (hn : L.code (.symbol name)) (h : ∀ e ∈ operands, L.code e) :
    L.holds L.value (Form.call ev evArgument name operands) := by
  refine L.bind (L.lookup hn) fun found hfound => ?_
  cases found with
  | none => exact L.fail _
  | some f =>
      cases f with
      | lambda params body =>
          have htake : ∀ e ∈ operands.take params.length, L.code e :=
            fun e he => h e (List.mem_of_mem_take he)
          refine L.bind (L.holds_arguments harg htake) fun args hargs => ?_
          refine L.bind (L.holds_ofExcept fun _ => Frame.ofCall_eq_ok) ?_
          rintro _ rfl
          refine L.bind (L.record _) fun _ _ => ?_
          exact L.invoke (hfound _ rfl) hargs (hk _) fun hb => hev _ hb
      | _ => exact L.fail _

include hev in
theorem holds_sequence {items : List Value} (h : ∀ e ∈ items, L.code e) :
    L.holds L.value (do return Value.list (← Form.sequence ev items)) := by
  simp only [Form.sequence_eq, bind_assoc, pure_bind]
  refine L.bind (L.holds_arguments hev h) fun vs hvs => L.pure (L.list ?_ ?_)
  · intro v hv
    exact hvs v (List.mem_of_mem_filter hv)
  · simp [Value.isVoid]

include hev harg in
/-- A list has the property if what evaluates its elements and its arguments has it. -/
theorem holds_list (hk : ∀ e, known (ev e)) {items : List Value} (h : L.code (.list items)) :
    L.holds L.value (Form.list room ev evArgument items) := by
  by_cases hs : ∃ name parts, items = .symbol name :: parts
  · obtain ⟨name, parts, rfl⟩ := hs
    by_cases hl : name = "lambda"
    · subst hl
      exact L.holds_function h
    have hparts : ∀ e ∈ parts, L.code e := L.tail h (by simpa using hl)
    by_cases ho : name ∈ operatorNames
    · rw [Form.list_operation parts ho]
      exact L.holds_operation hev _ hparts
    by_cases hd : name = "define"
    · subst hd
      exact L.holds_definition hev h
    by_cases hi : name = "if"
    · subst hi
      exact L.holds_conditional hev hparts
    · have hn : name ∉ reservedNames := by
        simp [reservedNames, ho, hd, hi, hl]
      rw [Form.list_call parts hn]
      refine L.holds_call hev harg hk (L.head h ?_) hparts
      intro key hkey he
      exact hn (Value.symbol.inj he ▸ hkey)
  · rw [Form.list_sequence fun name rest he => hs ⟨name, rest, he⟩]
    refine L.holds_sequence hev ?_
    cases items with
    | nil => simp
    | cons v vs =>
        have hv : ∀ name, v ≠ .symbol name := fun name he => hs ⟨name, vs, he ▸ rfl⟩
        exact List.forall_mem_cons.mpr ⟨L.head h fun name _ => hv name, L.tail h (hv _)⟩

/-- Evaluation has every property that the ways to build computations keep. -/
theorem holds_eval (hk : ∀ limit e, known (eval limit e)) {e : Value} (he : L.code e)
    (limit : Nat) : L.holds L.value (eval limit e) := by
  induction limit using Nat.strongRecOn generalizing e with
  | ind limit ih =>
      match limit, e, he with
      | 0, e, _ =>
          rw [eval_zero]
          exact L.fail _
      | 1, .list items, _ =>
          rw [eval_one_list]
          exact L.fail _
      | n + 2, .list items, he =>
          rw [eval_list]
          refine L.holds_list ?_ ?_ (hk n) he
          · exact fun e he => ih n (by omega) he
          · exact fun e he => ih (n - 1) (by omega) he
      | n + 1, .symbol name, he =>
          rw [eval]
          refine L.bind (L.lookup he) fun found hfound => ?_
          cases found with
          | none => exact L.fail _
          | some v => exact L.pure (hfound v rfl)
      | n + 1, .lambda params body, _ =>
          rw [eval_lambda]
          exact L.pure L.void
      | n + 1, .number _, he | n + 1, .boolean _, he | n + 1, .void, he | n + 1, .null, he
      | n + 1, .text _, he =>
          have hc := L.constant he (by constructor)
          rw [eval_constant (by constructor)]
          exact L.pure hc

end Logic

/-! ### Properties of single runs -/

namespace Eval

variable {α β : Type} {I : Scope → Prop} {R : Scope → Scope → Prop}

/-- From a scope that satisfies `I` a computation leads to a scope that `R` relates to it, and its
result, if any, satisfies `Q`. -/
def Ensures (I : Scope → Prop) (R : Scope → Scope → Prop) (Q : α → Prop) (m : Eval α) : Prop :=
  ∀ scope, I scope → R scope (m scope).scope ∧ ∀ a, (m scope).result = .ok a → Q a

theorem ensures_pure {Q : α → Prop} {a : α} (hr : ∀ scope, I scope → R scope scope) (h : Q a) :
    Ensures I R Q (pure a) := by
  refine fun scope hi => ⟨hr scope hi, fun b hb => ?_⟩
  obtain rfl : a = b := by simpa [pure_apply] using hb
  exact h

theorem ensures_fail {Q : α → Prop} (hr : ∀ scope, I scope → R scope scope) (fault : Fault) :
    Ensures I R Q (fail fault) :=
  fun scope hi => ⟨hr scope hi, fun _ => nofun⟩

theorem Ensures.bind {P : α → Prop} {Q : β → Prop} {m : Eval α} {f : α → Eval β}
    (hi : ∀ {scope next}, I scope → R scope next → I next)
    (ht : ∀ {scope next last}, R scope next → R next last → R scope last)
    (hm : Ensures I R P m) (hf : ∀ a, P a → Ensures I R Q (f a)) : Ensures I R Q (m >>= f) := by
  intro scope hscope
  obtain ⟨hnext, hresult⟩ := hm scope hscope
  cases h : (m scope).result with
  | error fault =>
      rw [bind_of_error h]
      exact ⟨hnext, fun _ => nofun⟩
  | ok a =>
      rw [bind_of_ok h]
      obtain ⟨hlast, hq⟩ := hf a (hresult a h) _ (hi hscope hnext)
      exact ⟨ht hnext hlast, hq⟩

end Eval

end DynLisp

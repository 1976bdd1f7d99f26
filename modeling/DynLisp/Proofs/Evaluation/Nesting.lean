import DynLisp.Proofs.Evaluation.Bindings
import DynLisp.Proofs.Evaluation.Forms
import DynLisp.Proofs.Evaluation.Logic
import DynLisp.Proofs.Evaluation.Operators
import DynLisp.Proofs.Reading.Trees

/-! # Evaluation without calls

An expression that makes no function calls none, in a scope that has none. The frames it takes are
then bounded by its own nesting, two for each level and one for its atoms: from that number on it
comes to one and the same run. There is one exception. A fault about a value shows the value in its
message, and displaying the value may take more frames than are left. -/

namespace DynLisp

/-- No function is made in an expression: it is built of atoms, symbols and lists, none of which is
headed by `lambda`. -/
inductive MakesNoFunction : Value → Prop where
  | constant {e} (h : Constant e) : MakesNoFunction e
  | symbol (name) : MakesNoFunction (.symbol name)
  | list {items} (hl : items.head? ≠ some (.symbol "lambda"))
      (h : ∀ e ∈ items, MakesNoFunction e) : MakesNoFunction (.list items)

theorem makesNoFunction_list_iff {items : List Value} :
    MakesNoFunction (.list items) ↔
      items.head? ≠ some (.symbol "lambda") ∧ ∀ e ∈ items, MakesNoFunction e := by
  constructor
  · intro h
    cases h with
    | constant h => cases h
    | list hl h => exact ⟨hl, h⟩
  · rintro ⟨hl, h⟩
    exact .list hl h

def Value.IsNoFunction (v : Value) : Prop := ∀ params body, v ≠ .lambda params body

/-- No name is bound to a function. -/
def Scope.HasNoFunction (scope : Scope) : Prop :=
  ∀ name v, scope.value? name = some v → v.IsNoFunction

theorem Scope.Binds.hasNoFunction {scope : Scope} (h : scope.Binds Value.IsNoFunction) :
    scope.HasNoFunction :=
  fun _ _ hv => h.of_value? hv

theorem Scope.HasNoFunction.define {scope : Scope} (h : scope.HasNoFunction) {v : Value}
    (hv : v.IsNoFunction) (name : String) : (scope.define name v).HasNoFunction := by
  intro key w hw
  by_cases hk : key = name
  · have hfind := (value?_eq_some_iff.mp hw).1
    rw [find?_define, if_pos hk] at hfind
    exact Option.some.inj hfind ▸ hv
  · rw [value?_define_of_ne scope v hk] at hw
    exact h key w hw

/-- A fault of an expression that makes no function is about a value and shows it in its message. -/
inductive Fault.Shows (v : Value) : Fault → Prop where
  | notNumber : Shows v (.notNumber v)
  | notBoolean : Shows v (.notBoolean v)
  | notSymbol : Shows v (.notSymbol v)

theorem Fault.Shows.ne_recursionLimit {v : Value} {fault : Fault} (h : fault.Shows v) :
    fault ≠ .recursionLimit := by
  cases h <;> simp

namespace Run

variable {α : Type}

/-- The run as it is when the frames run out at its end. -/
def exhausted (run : Run α) : Run α := { run with result := .error .recursionLimit }

/-- A run comes to a given run: it is that run, or that run ends by showing a value that cannot be
displayed in the frames left over. -/
def ComesTo (left : Nat) (actual run : Run α) : Prop :=
  actual = run ∨
    ∃ fault v, run.result = .error fault ∧ fault.Shows v ∧ v.displayIn? left = none ∧
      actual = run.exhausted

theorem ComesTo.eq_of_ok {left : Nat} {actual run : Run α} {a : α}
    (h : actual.ComesTo left run) (hr : run.result = .ok a) : actual = run := by
  rcases h with heq | ⟨fault, v, hf, _⟩
  · exact heq
  · rw [hr] at hf
    cases hf

theorem ComesTo.anti {left left' : Nat} {actual run : Run α} (h : actual.ComesTo left run)
    (hl : left' ≤ left) : actual.ComesTo left' run := by
  rcases h with heq | ⟨fault, v, hf, hshows, hnone, heq⟩
  · exact .inl heq
  · exact .inr ⟨fault, v, hf, hshows, Value.displayIn?_eq_none_anti hl hnone, heq⟩

/-- A run that does not run out of frames, makes no call and leaves no function. -/
structure IsCallFree (Q : α → Prop) (run : Run α) : Prop where
  settled : run.result ≠ .error .recursionLimit
  calls_eq : run.calls = []
  scope : run.scope.HasNoFunction
  result : ∀ a, run.result = .ok a → Q a

end Run

namespace Eval

variable {α β : Type} {used : Nat} {P : α → Prop} {Q : β → Prop}

/-- Computations with more and more frames come to one run as soon as there are more than `used`
frames, in every scope without functions. -/
def IsSteady (used : Nat) (Q : α → Prop) (m : Nat → Eval α) : Prop :=
  ∀ scope, scope.HasNoFunction →
    ∃ run : Run α, run.IsCallFree Q ∧
      ∀ limit, used < limit → (m limit scope).ComesTo (limit - used) run

theorem isSteady_pure {b : β} (h : Q b) : IsSteady used Q fun _ => pure b := by
  intro scope hs
  refine ⟨⟨.ok b, scope, []⟩, ⟨nofun, rfl, hs, ?_⟩, fun limit _ => .inl rfl⟩
  rintro _ ⟨⟩
  exact h

theorem isSteady_fail {fault : Fault} (h : fault ≠ .recursionLimit) :
    IsSteady used Q fun _ => fail fault := by
  intro scope hs
  refine ⟨⟨.error fault, scope, []⟩, ⟨?_, rfl, hs, nofun⟩, fun limit _ => .inl rfl⟩
  exact fun he => h (Except.error.inj he)

/-- A value that the fault shows is rejected wherever there is room for it. -/
theorem isSteady_reject {v : Value} {cause : Value → Fault} (h : (cause v).Shows v) :
    IsSteady used Q fun room => reject room v cause := by
  intro scope hs
  refine ⟨⟨.error (cause v), scope, []⟩, ⟨?_, rfl, hs, nofun⟩, fun room _ => ?_⟩
  · exact fun he => h.ne_recursionLimit (Except.error.inj he)
  cases hd : v.displayIn? room with
  | some text =>
      refine .inl ?_
      simp [reject, Value.canDisplayIn, hd, fail]
  | none =>
      refine .inr ⟨cause v, v, rfl, h, Value.displayIn?_eq_none_anti (Nat.sub_le ..) hd, ?_⟩
      simp [reject, Value.canDisplayIn, hd, fail, Run.exhausted]

theorem isSteady_define {v : Value} (hv : v.IsNoFunction) (name : String) :
    IsSteady used (fun _ => True) fun _ => define name v := by
  intro scope hs
  exact ⟨⟨.ok (), scope.define name v, []⟩, ⟨nofun, rfl, hs.define hv name, fun _ _ => trivial⟩,
    fun limit _ => .inl rfl⟩

/-- What comes after a failure makes no difference, and what comes after a value starts from one and
the same scope. -/
theorem IsSteady.bind {m : Nat → Eval α} {f : Nat → α → Eval β} (hm : IsSteady used P m)
    (hf : ∀ a, P a → IsSteady used Q fun limit => f limit a) :
    IsSteady used Q fun limit => m limit >>= f limit := by
  intro scope hs
  obtain ⟨first, hfirst, hcomes⟩ := hm scope hs
  cases hr : first.result with
  | error fault =>
      refine ⟨⟨.error fault, first.scope, first.calls⟩, ?_, fun limit hl => ?_⟩
      · refine ⟨fun he => hfirst.settled ?_, hfirst.calls_eq, hfirst.scope, nofun⟩
        rw [hr, Except.error.inj he]
      change ((m limit >>= f limit) scope).ComesTo _ _
      rcases hcomes limit hl with heq | ⟨shown, v, hshown, hshows, hnone, heq⟩
      · have he : (m limit scope).result = .error fault := by rw [heq, hr]
        refine .inl ?_
        rw [bind_of_error he, heq]
      · have he : (m limit scope).result = .error .recursionLimit := by rw [heq]; rfl
        obtain rfl : fault = shown := Except.error.inj (hr.symm.trans hshown)
        refine .inr ⟨fault, v, rfl, hshows, hnone, ?_⟩
        rw [bind_of_error he, heq]
        rfl
  | ok a =>
      obtain ⟨second, hsecond, hcomes'⟩ := hf a (hfirst.result a hr) first.scope hfirst.scope
      refine ⟨second, hsecond, fun limit hl => ?_⟩
      have heq : m limit scope = first := (hcomes limit hl).eq_of_ok hr
      have hbind : (m limit >>= f limit) scope = f limit a first.scope := by
        rw [bind_of_ok (a := a) (by rw [heq, hr]), heq, hfirst.calls_eq]
        rfl
      change ((m limit >>= f limit) scope).ComesTo _ _
      rw [hbind]
      exact hcomes' limit hl

theorem IsSteady.mono {used' : Nat} {m : Nat → Eval α} (h : IsSteady used P m)
    (hu : used ≤ used') : IsSteady used' P m := by
  intro scope hs
  obtain ⟨run, hrun, hcomes⟩ := h scope hs
  refine ⟨run, hrun, fun limit hl => ?_⟩
  exact (hcomes limit (by omega)).anti (by omega)

/-- A computation that takes some frames for itself and goes on with the others. -/
theorem IsSteady.shift {m m' : Nat → Eval α} (h : IsSteady used P m) (frames : Nat)
    (hm : ∀ limit, m' (limit + frames) = m limit) : IsSteady (used + frames) P m' := by
  intro scope hs
  obtain ⟨run, hrun, hcomes⟩ := h scope hs
  refine ⟨run, hrun, fun limit hl => ?_⟩
  obtain ⟨n, rfl⟩ := Nat.exists_eq_add_of_le' (Nat.le_of_lt (show frames < limit by omega))
  rw [hm, Nat.add_sub_add_right]
  exact hcomes n (by omega)

end Eval

/-! ### Forms -/

namespace Form

open Eval (IsSteady isSteady_pure isSteady_fail isSteady_reject isSteady_define)

variable {used : Nat}

theorem isSteady_number (v : Value) :
    IsSteady used (fun _ => True) fun room => number room v := by
  by_cases hn : ∃ n, v = .number n
  · obtain ⟨n, rfl⟩ := hn
    exact isSteady_pure trivial
  · have hv : ∀ n, v ≠ .number n := fun n he => hn ⟨n, he⟩
    simp only [number_eq_reject hv]
    exact isSteady_reject .notNumber

theorem isSteady_combine (op : Operator) (x y : Value) :
    IsSteady used Value.IsNoFunction fun room => combine room (.symbol op.name) x y := by
  refine (isSteady_number x).bind fun a _ => (isSteady_number y).bind fun b _ => ?_
  simp only [Operator.ofValue?, Operator.ofName?_name]
  cases hr : op.apply a b with
  | error fault =>
      refine isSteady_fail ?_
      rintro rfl
      exact op.apply_ne_exhaustion a b hr
  | ok v =>
      refine isSteady_pure ?_
      rcases Operator.apply_eq_ok hr with ⟨n, rfl, _⟩ | ⟨t, rfl⟩ <;> nofun

variable {parts : List Value}
  (hev : ∀ e ∈ parts, IsSteady used Value.IsNoFunction fun limit => eval limit e)

include hev in
theorem isSteady_operation {op : String} (ho : op ∈ operatorNames) :
    IsSteady used Value.IsNoFunction fun n => operation n (eval n) (.symbol op) parts := by
  obtain ⟨operator, rfl⟩ := mem_operatorNames_iff.mp ho
  by_cases hl : parts.length = 2
  · obtain ⟨left, right, rfl⟩ := List.length_eq_two.mp hl
    simp only [operation_pair]
    refine (hev left (by simp)).bind fun x _ => (hev right (by simp)).bind fun y _ => ?_
    exact isSteady_combine operator x y
  · simp only [operation_other hl]
    exact isSteady_fail (by simp)

include hev in
theorem isSteady_definition :
    IsSteady used Value.IsNoFunction fun n => definition n (eval n) parts := by
  by_cases hl : parts.length = 2
  · obtain ⟨key, e, rfl⟩ := List.length_eq_two.mp hl
    by_cases hk : ∃ name, key = .symbol name
    · obtain ⟨name, rfl⟩ := hk
      simp only [definition_pair]
      refine (hev e (by simp)).bind fun v hv => (isSteady_define hv name).bind fun _ _ => ?_
      exact isSteady_pure nofun
    · simp only [definition_name e fun name he => hk ⟨name, he⟩]
      exact isSteady_reject .notSymbol
  · simp only [definition_other hl]
    exact isSteady_fail (by simp)

include hev in
theorem isSteady_conditional :
    IsSteady used Value.IsNoFunction fun n => conditional n (eval n) parts := by
  by_cases hl : parts.length = 3
  · obtain ⟨condition, yes, no, rfl⟩ := List.length_eq_three.mp hl
    simp only [conditional_triple]
    refine (hev condition (by simp)).bind fun v _ => ?_
    by_cases hv : ∃ b, v = .boolean b
    · obtain ⟨b, rfl⟩ := hv
      cases b with
      | true => exact hev yes (by simp)
      | false => exact hev no (by simp)
    · simp only [branch_other fun b he => hv ⟨b, he⟩]
      exact isSteady_reject .notBoolean
  · simp only [conditional_other hl]
    exact isSteady_fail (by simp)

/-- A call finds no function, so nothing that it is given is evaluated. -/
theorem isSteady_call (name : String) (operands : List Value) :
    IsSteady used Value.IsNoFunction fun n => call (eval n) (eval (n - 1)) name operands := by
  intro scope hs
  cases hv : scope.value? name with
  | none =>
      simp only [call_undefined hv]
      exact isSteady_fail (by simp) scope hs
  | some v =>
      simp only [call_other hv (hs name v hv)]
      exact isSteady_fail (by simp) scope hs

include hev in
theorem isSteady_arguments :
    IsSteady used (fun _ => True) fun n => arguments (eval n) parts := by
  induction parts with
  | nil => exact isSteady_pure trivial
  | cons e es ih =>
      obtain ⟨he, hes⟩ := List.forall_mem_cons.mp hev
      exact he.bind fun v _ => (ih hes).bind fun vs _ => isSteady_pure trivial

include hev in
theorem isSteady_sequence :
    IsSteady used Value.IsNoFunction
      fun n => do return Value.list (← sequence (eval n) parts) := by
  simp only [sequence_eq, bind_assoc, pure_bind]
  exact (isSteady_arguments hev).bind fun vs _ => isSteady_pure nofun

end Form

/-- A list comes to one run if its elements do, unless it makes a function. -/
theorem isSteady_list {used : Nat} {items : List Value}
    (hl : items.head? ≠ some (.symbol "lambda"))
    (hev : ∀ e ∈ items, Eval.IsSteady used Value.IsNoFunction fun limit => eval limit e) :
    Eval.IsSteady used Value.IsNoFunction fun n => Form.list n (eval n) (eval (n - 1)) items := by
  by_cases hs : ∃ name parts, items = .symbol name :: parts
  · obtain ⟨name, parts, rfl⟩ := hs
    have hparts := (List.forall_mem_cons.mp hev).2
    by_cases ho : name ∈ operatorNames
    · simp only [Form.list_operation parts ho]
      exact Form.isSteady_operation hparts ho
    by_cases hd : name = "define"
    · subst hd
      exact Form.isSteady_definition hparts
    by_cases hi : name = "if"
    · subst hi
      exact Form.isSteady_conditional hparts
    · have hn : name ∉ reservedNames := by
        have hne : name ≠ "lambda" := by simpa using hl
        simp [reservedNames, ho, hd, hi, hne]
      simp only [Form.list_call parts hn]
      exact Form.isSteady_call name parts
  · simp only [Form.list_sequence fun name rest he => hs ⟨name, rest, he⟩]
    exact Form.isSteady_sequence hev

theorem isSteady_eval_symbol (name : String) :
    Eval.IsSteady 0 Value.IsNoFunction fun limit => eval limit (.symbol name) := by
  intro scope hs
  cases hv : scope.value? name with
  | none =>
      refine ⟨⟨.error (.undefinedSymbol name), scope, []⟩, ⟨nofun, rfl, hs, nofun⟩, ?_⟩
      intro limit hl
      obtain ⟨n, rfl⟩ := Nat.exists_eq_add_of_le' hl
      exact .inl (eval_symbol_of_none n hv)
  | some v =>
      refine ⟨⟨.ok v, scope, []⟩, ⟨nofun, rfl, hs, ?_⟩, ?_⟩
      · rintro _ ⟨⟩
        exact hs name v hv
      · intro limit hl
        obtain ⟨n, rfl⟩ := Nat.exists_eq_add_of_le' hl
        exact .inl (eval_symbol_of_some n hv)

theorem isSteady_eval_constant {e : Value} (h : Constant e) :
    Eval.IsSteady 0 Value.IsNoFunction fun limit => eval limit e := by
  intro scope hs
  refine ⟨⟨.ok e, scope, []⟩, ⟨nofun, rfl, hs, ?_⟩, fun limit hl => ?_⟩
  · rintro _ ⟨⟩
    cases h <;> nofun
  · obtain ⟨n, rfl⟩ := Nat.exists_eq_add_of_le' hl
    exact .inl (congrFun (eval_constant h n) scope)

theorem Constant.depth_eq_zero {e : Value} (h : Constant e) : e.depth = 0 := by
  cases h <;> rfl

/-- Two frames for each level of an expression and one more suffice to evaluate it. -/
theorem MakesNoFunction.isSteady_eval {e : Value} (h : MakesNoFunction e) :
    Eval.IsSteady (2 * e.depth) Value.IsNoFunction fun limit => eval limit e := by
  induction h with
  | constant hc =>
      rw [hc.depth_eq_zero]
      exact isSteady_eval_constant hc
  | symbol name => exact isSteady_eval_symbol name
  | @list items hl _ ih =>
      have hev : ∀ e ∈ items, Eval.IsSteady (2 * Value.depthOfAll items) Value.IsNoFunction
          fun limit => eval limit e :=
        fun e he => (ih e he).mono (Nat.mul_le_mul_left 2 (Value.depth_le_depthOfAll he))
      -- a list takes one frame for itself and one around its elements
      exact (isSteady_list hl hev).shift 2 fun limit => eval_list limit items

/-- Without functions an expression comes to one and the same run with every number of frames from
two for each level of its nesting and one more on, and it makes no call. Only where the run ends by
showing a value in its message may the frames run out, if the value has no text in those left over
by the nesting of the expression; the scope is then the same. -/
theorem eval_comes_to_one_run {e : Value} {scope : Scope} (he : MakesNoFunction e)
    (hs : scope.HasNoFunction) :
    ∃ run : Run Value, run.result ≠ .error .recursionLimit ∧ run.calls = [] ∧
      ∀ limit, 2 * e.depth + 1 ≤ limit →
        eval limit e scope = run ∨
          ∃ v, (run.result = .error (.notNumber v) ∨ run.result = .error (.notBoolean v) ∨
              run.result = .error (.notSymbol v)) ∧
            v.displayIn? (limit - 2 * e.depth) = none ∧
            eval limit e scope = { run with result := .error .recursionLimit } := by
  obtain ⟨run, hrun, hcomes⟩ := he.isSteady_eval scope hs
  refine ⟨run, hrun.settled, hrun.calls_eq, fun limit hl => ?_⟩
  rcases hcomes limit hl with heq | ⟨fault, v, hfault, hshows, hnone, heq⟩
  · exact .inl heq
  · refine .inr ⟨v, ?_, hnone, heq⟩
    cases hshows with
    | notNumber => exact .inl hfault
    | notBoolean => exact .inr (.inl hfault)
    | notSymbol => exact .inr (.inr hfault)

/-- A conditional on a bound number, with as many frames as its nesting asks for and more. -/
theorem eval_comes_to_one_run_conditional :
    let condition := Value.list [.symbol "o_O", .symbol "x", .number 2]
    let e := Value.list [.symbol "if", condition, .symbol "x", .symbol "y"]
    let scope := Scope.ofFrame ⟨[("x", .number 1)]⟩
    MakesNoFunction e ∧ scope.HasNoFunction ∧
      ∀ limit, 5 ≤ limit → eval limit e scope = ⟨.ok (.number 1), scope, []⟩ := by
  intro condition e scope
  have he : MakesNoFunction e := by
    simp [e, condition, makesNoFunction_list_iff, MakesNoFunction.symbol,
      MakesNoFunction.constant (.number _)]
  have hs : scope.HasNoFunction := by
    refine Scope.Binds.hasNoFunction (List.forall_mem_singleton.mpr ?_)
    exact List.forall_mem_singleton.mpr nofun
  obtain ⟨run, _, _, hrun⟩ := eval_comes_to_one_run he hs
  have hfive : eval 5 e scope = ⟨.ok (.number 1), scope, []⟩ := rfl
  have hvalue : run = ⟨.ok (.number 1), scope, []⟩ := by
    rcases hrun 5 (by decide) with heq | ⟨v, _, _, heq⟩
    · rw [← heq, hfive]
    · rw [hfive] at heq
      cases heq
  subst hvalue
  refine ⟨he, hs, fun limit hl => ?_⟩
  rcases hrun limit hl with heq | ⟨v, hfault | hfault | hfault, _⟩
  · exact heq
  · cases hfault
  · cases hfault
  · cases hfault

/-- A value that definitions have nested more deeply than the expression takes more frames to show
than the expression takes: `((define x (1)) (define x (1 x)) (+ x 1))` has three levels. -/
theorem exhausted_by_message :
    ¬ ∀ (e : Value) (scope : Scope), MakesNoFunction e → scope.HasNoFunction →
      ∀ limit, 2 * e.depth + 1 ≤ limit → (eval limit e scope).result ≠ .error .recursionLimit := by
  intro h
  let first := Value.list [.symbol "define", .symbol "x", .list [.number 1]]
  let second := Value.list [.symbol "define", .symbol "x", .list [.number 1, .symbol "x"]]
  let sum := Value.list [.symbol "+", .symbol "x", .number 1]
  have he : MakesNoFunction (.list [first, second, sum]) := by
    simp [first, second, sum, makesNoFunction_list_iff, MakesNoFunction.symbol,
      MakesNoFunction.constant (.number _)]
  have hs : (Scope.ofFrame .empty).HasNoFunction :=
    Scope.Binds.hasNoFunction (List.forall_mem_singleton.mpr Frame.binds_empty)
  exact h _ _ he hs 7 (by decide) rfl

end DynLisp

import DynLisp.Proofs.Evaluation.Logic

/-! # What an evaluation does to its scope

An evaluation makes definitions in the innermost frame of its scope and changes nothing else. The
frame that the body of a function works in is dropped after a call, so a call changes its scope only
by evaluating its arguments. -/

namespace DynLisp

/-- A scope after some definitions in its innermost frame. -/
inductive Scope.DefinesTo (scope : Scope) : Scope → Prop where
  | refl : DefinesTo scope scope
  | define {next} (name v) (h : DefinesTo scope next) : DefinesTo scope (next.define name v)

theorem Scope.DefinesTo.trans {scope next last : Scope} (h : scope.DefinesTo next)
    (h' : next.DefinesTo last) : scope.DefinesTo last := by
  induction h' with
  | refl => exact h
  | define name v _ ih => exact .define name v ih

theorem Scope.DefinesTo.outer_eq {scope next : Scope} (h : scope.DefinesTo next) :
    next.outer = scope.outer := by
  induction h with
  | refl => rfl
  | define name v _ ih => exact ih

/-- Definitions inside a frame are gone when the frame is. -/
theorem Scope.DefinesTo.leave_enter {scope inner : Scope} {frame : Frame}
    (h : (scope.enter frame).DefinesTo inner) : inner.leave = scope := by
  have ho : inner.outer = scope.frames := h.outer_eq
  simp [leave, ho, frames]

/-- A computation that changes its scope by definitions in the innermost frame only. -/
def Eval.OnlyDefines {α : Type} (m : Eval α) : Prop :=
  ∀ scope : Scope, scope.DefinesTo (m scope).scope

theorem Eval.OnlyDefines.scope_within {α : Type} {m : Eval α} (h : m.OnlyDefines) (frame : Frame)
    (scope : Scope) : (within frame m scope).scope = scope :=
  (h (scope.enter frame)).leave_enter

/-- Evaluation makes definitions and nothing else, whatever is evaluated. -/
def Logic.locality : Logic fun _ => True where
  code _ := True
  value _ := True
  holds Q m := m.Ensures (fun _ => True) Scope.DefinesTo Q
  pure := Eval.ensures_pure fun _ _ => .refl
  fail := Eval.ensures_fail fun _ _ => .refl
  bind := .bind (fun _ _ => trivial) .trans
  lookup _ _ _ := ⟨.refl, fun _ _ _ _ => trivial⟩
  define _ _ _ _ := ⟨.define _ _ .refl, fun _ _ => trivial⟩
  record _ _ _ := ⟨.refl, fun _ _ => trivial⟩
  invoke _ _ _ hm scope _ := by
    have hd : Eval.OnlyDefines _ := fun scope => (hm trivial scope trivial).1
    refine ⟨?_, fun _ _ => trivial⟩
    rw [hd.scope_within]
    exact .refl
  head _ _ := trivial
  tail _ _ _ _ := trivial
  constant _ _ := trivial
  number _ := trivial
  boolean _ := trivial
  void := trivial
  list _ _ := trivial
  function _ := trivial

theorem Logic.locality_eval (limit : Nat) (e : Value) :
    locality.holds locality.value (eval limit e) :=
  locality.holds_eval (fun _ _ => trivial) trivial limit

theorem eval_onlyDefines (limit : Nat) (e : Value) : (eval limit e).OnlyDefines :=
  fun scope => (Logic.locality_eval limit e scope trivial).1

namespace Form

theorem operation_onlyDefines (room limit : Nat) (op : Value) (operands : List Value) :
    (operation room (eval limit) op operands).OnlyDefines := by
  have h : Logic.locality.holds Logic.locality.value (operation room (eval limit) op operands) :=
    Logic.locality.holds_operation (fun e _ => Logic.locality_eval limit e) op fun _ _ => trivial
  exact fun scope => (h scope trivial).1

theorem call_onlyDefines (limit limit' : Nat) (name : String) (operands : List Value) :
    (call (eval limit) (eval limit') name operands).OnlyDefines := by
  have h : Logic.locality.holds Logic.locality.value
      (call (eval limit) (eval limit') name operands) :=
    Logic.locality.holds_call (fun e _ => Logic.locality_eval limit e)
      (fun e _ => Logic.locality_eval limit' e) (fun _ => trivial) trivial fun _ _ => trivial
  exact fun scope => (h scope trivial).1

theorem arguments_onlyDefines (limit : Nat) (es : List Value) :
    (arguments (eval limit) es).OnlyDefines := by
  have h : Logic.locality.holds (fun vs => ∀ v ∈ vs, Logic.locality.value v)
      (arguments (eval limit) es) :=
    Logic.locality.holds_arguments (fun e _ => Logic.locality_eval limit e) fun _ _ => trivial
  exact fun scope => (h scope trivial).1

/-- A call leaves the scope that its arguments leave: what its body binds is not seen after it. -/
theorem scope_call {name : String} {operands body : List Value} {params : List String}
    {scope : Scope} (h : scope.value? name = some (.lambda params body)) (limit limit' : Nat) :
    (call (eval limit) (eval limit') name operands scope).scope =
      (arguments (eval limit') (operands.take params.length) scope).scope := by
  rw [call_function h, invoke]
  cases hargs : (arguments (eval limit') (operands.take params.length) scope).result with
  | error fault => rw [Eval.bind_of_error hargs]
  | ok args =>
      rw [Eval.bind_of_ok hargs]
      cases Frame.ofCall params args with
      | error fault => rfl
      | ok frame => exact (eval_onlyDefines limit (.list body)).scope_within frame _

end Form

end DynLisp

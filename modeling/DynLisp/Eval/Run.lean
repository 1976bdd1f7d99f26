import DynLisp.Fault
import DynLisp.Scope

/-! # Runs

A computation of the evaluator starts in a scope and ends with a value or a fault, the scope as it
then is, and the calls that were entered on the way. The definitions made before a fault stay.
-/

namespace DynLisp

/-- A function call whose parameters have been bound. -/
structure Call where
  name : String
  arguments : Nat
  deriving Repr, DecidableEq

/-- The end of a computation. -/
structure Run (α : Type) where
  result : Except Fault α
  scope : Scope
  /-- The calls entered, in order. -/
  calls : List Call

/-- A computation of the evaluator. -/
def Eval (α : Type) := Scope → Run α

namespace Eval

variable {α β : Type}

/-- Gives a value and does nothing. -/
protected def pure (a : α) : Eval α := fun scope => ⟨.ok a, scope, []⟩

/-- One computation after another; a fault in the first is a fault of both. -/
protected def bind (m : Eval α) (f : α → Eval β) : Eval β := fun scope =>
  let first := m scope
  match first.result with
  | .error fault => ⟨.error fault, first.scope, first.calls⟩
  | .ok a =>
    let second := f a first.scope
    { second with calls := first.calls ++ second.calls }

instance : Monad Eval where
  pure := Eval.pure
  bind := Eval.bind

theorem pure_apply (a : α) (scope : Scope) : (pure a : Eval α) scope = ⟨.ok a, scope, []⟩ := rfl

/-- After a value the second computation goes on in the scope that the first one leaves. -/
theorem bind_of_ok {m : Eval α} {f : α → Eval β} {scope : Scope} {a : α}
    (h : (m scope).result = .ok a) :
    (m >>= f) scope =
      { f a (m scope).scope with calls := (m scope).calls ++ (f a (m scope).scope).calls } := by
  simp [bind, Eval.bind, h]

/-- After a fault nothing more happens. -/
theorem bind_of_error {m : Eval α} {f : α → Eval β} {scope : Scope} {fault : Fault}
    (h : (m scope).result = .error fault) :
    (m >>= f) scope = ⟨.error fault, (m scope).scope, (m scope).calls⟩ := by
  simp [bind, Eval.bind, h]

def fail (fault : Fault) : Eval α := fun scope => ⟨.error fault, scope, []⟩

def ofExcept (result : Except Fault α) : Eval α := fun scope => ⟨result, scope, []⟩

/-- The value of a name in the scope. -/
def value? (name : String) : Eval (Option Value) := fun scope =>
  ⟨.ok (scope.value? name), scope, []⟩

/-- Binds a name in the innermost frame of the scope. -/
def define (name : String) (v : Value) : Eval Unit := fun scope =>
  ⟨.ok (), scope.define name v, []⟩

/-- Notes that a call is entered. -/
def record (call : Call) : Eval Unit := fun scope => ⟨.ok (), scope, [call]⟩

/-- Runs a computation inside a frame that is dropped after it. -/
def within (frame : Frame) (m : Eval α) : Eval α := fun scope =>
  let inner := m (scope.enter frame)
  { inner with scope := inner.scope.leave }

/-- Fails because of a value. The value is displayed for the message, which has to be done in the
frames that are left; `room` is their number. -/
def reject (room : Nat) (v : Value) (cause : Value → Fault) : Eval α :=
  if v.canDisplayIn room then fail (cause v) else fail .recursionLimit

end Eval

end DynLisp

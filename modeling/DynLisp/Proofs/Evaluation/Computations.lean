import DynLisp.Eval.Form
import DynLisp.Proofs.Evaluation.Rules

/-! # Laws of computations

Computations form a lawful monad. A computation settles when it ends otherwise than by running out
of frames; for each way to build a computation one equivalence says how it settles, so that proofs
about forms need not look into runs. -/

namespace DynLisp

theorem Eval.id_map {α : Type} (m : Eval α) : id <$> m = m := by
  funext scope
  change (m >>= fun a => pure a) scope = m scope
  cases h : (m scope).result with
  | error fault => rw [bind_of_error h, ← h]
  | ok a => simp [bind_of_ok h, pure_apply, ← h]

theorem Eval.bind_bind {α β γ : Type} (m : Eval α) (f : α → Eval β) (g : β → Eval γ) :
    m >>= f >>= g = m >>= fun a => f a >>= g := by
  funext scope
  cases h : (m scope).result with
  | error fault =>
      have hf : ((m >>= f) scope).result = .error fault := by simp [bind_of_error h]
      rw [bind_of_error hf, bind_of_error h, bind_of_error h]
  | ok a =>
      cases hf : (f a (m scope).scope).result with
      | error fault =>
          have hb : ((m >>= f) scope).result = .error fault := by simp [bind_of_ok h, hf]
          rw [bind_of_error hb, bind_of_ok h, bind_of_ok h, bind_of_error hf]
      | ok b =>
          have hb : ((m >>= f) scope).result = .ok b := by simp [bind_of_ok h, hf]
          rw [bind_of_ok hb, bind_of_ok h, bind_of_ok h, bind_of_ok hf, List.append_assoc]

instance : LawfulMonad Eval :=
  LawfulMonad.mk' Eval Eval.id_map (fun _ _ => rfl) Eval.bind_bind

theorem Eval.map_apply {α β : Type} (f : α → β) (m : Eval α) (scope : Scope) :
    (f <$> m) scope = ⟨(m scope).result.map f, (m scope).scope, (m scope).calls⟩ := by
  rw [map_eq_pure_bind]
  cases h : (m scope).result with
  | error fault => simp [bind_of_error h, Except.map]
  | ok a => simp [bind_of_ok h, pure_apply, Except.map]

@[simp]
theorem mapError_ok {ε ε' α : Type} (f : ε → ε') (a : α) :
    (Except.ok a : Except ε α).mapError f = .ok a := rfl

@[simp]
theorem mapError_error {ε ε' α : Type} (f : ε → ε') (cause : ε) :
    (Except.error cause : Except ε α).mapError f = .error (f cause) := rfl

theorem map_mapError {ε ε' α β : Type} (f : ε → ε') (g : α → β) (result : Except ε α) :
    (result.mapError f).map g = (result.map g).mapError f := by
  cases result <;> rfl

/-- A fault without the values it is about. -/
def Fault.report (fault : Fault) : Report := ⟨fault.label, fault.message⟩

/-- What an error of the evaluator looks like from outside. -/
def Run.ending {α : Type} (run : Run α) : Except Report α := run.result.mapError Fault.report

/-- The run did not run out of frames; it ended as given and left the given scope. -/
def Run.Settles {α : Type} (run : Run α) (ending : Except Report α) (scope : Scope) : Prop :=
  run.result ≠ .error .recursionLimit ∧ run.ending = ending ∧ run.scope = scope

/-- Of all faults only one reports that the frames have run out. -/
theorem Fault.label_eq_iff (fault : Fault) :
    fault.label = "OwoRecursionError" ↔ fault = .recursionLimit := by
  cases fault <;> simp [label]

theorem Run.isExhausted_iff {α : Type} (run : Run α) :
    IsExhausted run.ending ↔ run.result = .error .recursionLimit := by
  cases h : run.result with
  | error fault => simp [IsExhausted, ending, h, Fault.report, Fault.label_eq_iff]
  | ok a => simp [IsExhausted, ending, h]

namespace Eval

variable {α β : Type} {scope scope' : Scope}

@[simp]
theorem settles_pure {a : α} {ending : Except Report α} :
    ((pure a : Eval α) scope).Settles ending scope' ↔ ending = .ok a ∧ scope' = scope := by
  simp [Run.Settles, Run.ending, pure_apply, eq_comm]

@[simp]
theorem settles_fail {fault : Fault} {ending : Except Report α} :
    ((fail fault : Eval α) scope).Settles ending scope' ↔
      fault ≠ .recursionLimit ∧ ending = .error fault.report ∧ scope' = scope := by
  simp [Run.Settles, Run.ending, fail, eq_comm]

@[simp]
theorem settles_ofExcept {result : Except Fault α} {ending : Except Report α} :
    (ofExcept result scope).Settles ending scope' ↔
      result ≠ .error .recursionLimit ∧ ending = result.mapError Fault.report ∧
        scope' = scope := by
  simp [Run.Settles, Run.ending, ofExcept, eq_comm]

@[simp]
theorem settles_define {name : String} {v : Value} {ending : Except Report Unit} :
    (define name v scope).Settles ending scope' ↔
      ending = .ok () ∧ scope' = scope.define name v := by
  simp [Run.Settles, Run.ending, define, eq_comm]

@[simp]
theorem settles_record {call : Call} {ending : Except Report Unit} :
    (record call scope).Settles ending scope' ↔ ending = .ok () ∧ scope' = scope := by
  simp [Run.Settles, Run.ending, record, eq_comm]

@[simp]
theorem settles_within {frame : Frame} {m : Eval α} {ending : Except Report α} :
    (within frame m scope).Settles ending scope' ↔
      ∃ inner, (m (scope.enter frame)).Settles ending inner ∧ scope' = inner.leave := by
  simp [Run.Settles, Run.ending, within, eq_comm, and_assoc]

theorem value?_bind (name : String) (f : Option Value → Eval β) (scope : Scope) :
    (value? name >>= f) scope = f (scope.value? name) scope := rfl

@[simp]
theorem fail_bind (fault : Fault) (f : α → Eval β) : (fail fault : Eval α) >>= f = fail fault := rfl

theorem ofExcept_ok (a : α) : ofExcept (.ok a) = pure a := rfl

theorem ofExcept_error (fault : Fault) : (ofExcept (.error fault) : Eval α) = fail fault := rfl

@[simp]
theorem reject_bind (room : Nat) (v : Value) (cause : Value → Fault) (f : α → Eval β) :
    reject room v cause >>= f = reject room v cause := by
  unfold reject
  split <;> rfl

/-- A value is rejected only where there is room to display it. -/
@[simp]
theorem settles_reject {room : Nat} {v : Value} {cause : Value → Fault}
    {ending : Except Report α} :
    (reject room v cause scope : Run α).Settles ending scope' ↔
      (v.displayFrames ≤ room ∧ cause v ≠ .recursionLimit) ∧
        ending = .error (cause v).report ∧ scope' = scope := by
  by_cases h : v.canDisplayIn room
  · have hd := Value.canDisplayIn_iff.mp h
    simp [reject, h, hd]
  · have hd := mt Value.canDisplayIn_iff.mpr h
    simp [reject, h, hd]

/-- Two computations in a row settle by an error of the first, or by the second in the scope that
the first leaves. -/
@[simp]
theorem settles_bind {m : Eval α} {f : α → Eval β} {ending : Except Report β} :
    ((m >>= f) scope).Settles ending scope' ↔
      (∃ report, (m scope).Settles (.error report) scope' ∧ ending = .error report) ∨
        ∃ a next, (m scope).Settles (.ok a) next ∧ (f a next).Settles ending scope' := by
  cases h : (m scope).result with
  | error fault =>
      rw [bind_of_error h]
      constructor
      · rintro ⟨hne, rfl, rfl⟩
        refine .inl ⟨fault.report, ⟨?_, ?_, rfl⟩, rfl⟩
        · intro he
          exact hne (by rw [he] at h; cases h; rfl)
        · simp [Run.ending, h]
      · rintro (⟨report, ⟨hne, he, rfl⟩, rfl⟩ | ⟨a, next, ⟨_, he, _⟩, _⟩)
        · refine ⟨?_, ?_, rfl⟩
          · intro hf
            exact hne (by rw [h]; cases hf; rfl)
          · simpa [Run.ending, h] using he
        · simp [Run.ending, h] at he
  | ok a =>
      rw [bind_of_ok h]
      constructor
      · intro hs
        exact .inr ⟨a, _, ⟨by simp [h], by simp [Run.ending, h], rfl⟩, hs⟩
      · rintro (⟨report, ⟨_, he, _⟩, _⟩ | ⟨b, next, ⟨_, he, rfl⟩, hs⟩)
        · simp [Run.ending, h] at he
        · obtain rfl : a = b := by simpa [Run.ending, h] using he
          exact hs

@[simp]
theorem settles_map {m : Eval α} {f : α → β} {ending : Except Report β} :
    ((f <$> m) scope).Settles ending scope' ↔
      (∃ report, (m scope).Settles (.error report) scope' ∧ ending = .error report) ∨
        ∃ a, (m scope).Settles (.ok a) scope' ∧ ending = .ok (f a) := by
  rw [map_eq_pure_bind, settles_bind]
  simp only [settles_pure]
  refine or_congr_right (exists_congr fun a => ?_)
  constructor
  · rintro ⟨next, hm, rfl, rfl⟩
    exact ⟨hm, rfl⟩
  · rintro ⟨hm, rfl⟩
    exact ⟨scope', hm, rfl, rfl⟩

end Eval

end DynLisp

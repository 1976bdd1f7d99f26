import DynLisp.Proofs.Evaluation.Forms
import Mathlib.Data.List.Basic

/-! # More frames

With more frames an evaluation is the same, or it goes on where it had run out of them before. This
relation between two computations is kept by every way to build a computation, so each form keeps it
and, by induction on the number of frames, evaluation does. -/

namespace DynLisp

/-- The second run is the first one, or the first one ran out of frames and the second one has
entered the same calls and perhaps more. -/
def Run.ExtendsTo {α : Type} (small large : Run α) : Prop :=
  large = small ∨ small.result = .error .recursionLimit ∧ small.calls <+: large.calls

/-- A computation with fewer frames and one with more. -/
def Eval.ExtendsTo {α : Type} (m n : Eval α) : Prop := ∀ scope, (m scope).ExtendsTo (n scope)

namespace Eval

variable {α β : Type}

theorem ExtendsTo.refl (m : Eval α) : m.ExtendsTo m := fun _ => .inl rfl

theorem extendsTo_of_exhausted (n : Eval α) : (fail .recursionLimit : Eval α).ExtendsTo n :=
  fun _ => .inr ⟨rfl, List.nil_prefix⟩

theorem calls_prefix_bind (m : Eval α) (f : α → Eval β) (scope : Scope) :
    (m scope).calls <+: ((m >>= f) scope).calls := by
  cases h : (m scope).result with
  | error fault => simp [bind_of_error h]
  | ok a => simp [bind_of_ok h]

/-- What comes after a computation that ran out of frames makes no difference. -/
theorem ExtendsTo.bind {m n : Eval α} {f g : α → Eval β} (hm : m.ExtendsTo n)
    (hf : ∀ a, (f a).ExtendsTo (g a)) : (m >>= f).ExtendsTo (n >>= g) := by
  intro scope
  rcases hm scope with hn | ⟨he, hc⟩
  · cases h : (m scope).result with
    | error fault =>
        have h' : (n scope).result = .error fault := by rw [hn, h]
        rw [bind_of_error h, bind_of_error h', hn]
        exact .inl rfl
    | ok a =>
        have h' : (n scope).result = .ok a := by rw [hn, h]
        rw [bind_of_ok h, bind_of_ok h', hn]
        rcases hf a (m scope).scope with heq | ⟨he, hc⟩
        · rw [heq]
          exact .inl rfl
        · exact .inr ⟨he, (List.prefix_append_right_inj _).mpr hc⟩
  · refine .inr ⟨?_, ?_⟩
    · rw [bind_of_error he]
    · rw [bind_of_error he]
      exact hc.trans (calls_prefix_bind n g scope)

theorem ExtendsTo.within {m n : Eval α} (h : m.ExtendsTo n) (frame : Frame) :
    (within frame m).ExtendsTo (within frame n) := by
  intro scope
  rcases h (scope.enter frame) with heq | ⟨he, hc⟩
  · refine .inl ?_
    simp only [Eval.within, heq]
  · exact .inr ⟨he, hc⟩

theorem reject_extendsTo {room room' : Nat} (h : room ≤ room') (v : Value)
    (cause : Value → Fault) :
    (reject room v cause : Eval α).ExtendsTo (reject room' v cause) := by
  by_cases hv : v.canDisplayIn room
  · have hv' : v.canDisplayIn room' := Value.canDisplayIn_mono h hv
    simp only [reject, hv, hv', if_true]
    exact .refl _
  · simp only [reject, hv]
    exact extendsTo_of_exhausted _

end Eval

/-! ### Forms -/

namespace Form

open Eval (reject_extendsTo)

variable {room room' : Nat} {ev ev' evArgument evArgument' : Value → Eval Value}

theorem number_extendsTo (hr : room ≤ room') (v : Value) :
    (number room v).ExtendsTo (number room' v) := by
  cases v with
  | number n => exact .refl _
  | _ => exact reject_extendsTo hr _ _

theorem operation_extendsTo (hr : room ≤ room') (he : ∀ e, (ev e).ExtendsTo (ev' e)) (op : Value)
    (operands : List Value) :
    (operation room ev op operands).ExtendsTo (operation room' ev' op operands) := by
  by_cases hl : operands.length = 2
  · obtain ⟨left, right, rfl⟩ := List.length_eq_two.mp hl
    refine (he left).bind fun x => (he right).bind fun y => ?_
    refine (number_extendsTo hr x).bind fun a => (number_extendsTo hr y).bind fun b => ?_
    cases Operator.ofValue? op with
    | none => exact reject_extendsTo hr _ _
    | some op => exact .refl _
  · rw [operation_other hl, operation_other hl]
    exact .refl _

theorem definition_extendsTo (hr : room ≤ room') (he : ∀ e, (ev e).ExtendsTo (ev' e))
    (parts : List Value) : (definition room ev parts).ExtendsTo (definition room' ev' parts) := by
  by_cases hl : parts.length = 2
  · obtain ⟨name, e, rfl⟩ := List.length_eq_two.mp hl
    cases name with
    | symbol name => exact (he e).bind fun v => .refl _
    | _ => exact reject_extendsTo hr _ _
  · rw [definition_other hl, definition_other hl]
    exact .refl _

theorem branch_extendsTo (hr : room ≤ room') (he : ∀ e, (ev e).ExtendsTo (ev' e))
    (yes no v : Value) : (branch room ev yes no v).ExtendsTo (branch room' ev' yes no v) := by
  cases v with
  | boolean b =>
      cases b with
      | true => exact he yes
      | false => exact he no
  | _ => exact reject_extendsTo hr _ _

theorem conditional_extendsTo (hr : room ≤ room') (he : ∀ e, (ev e).ExtendsTo (ev' e))
    (parts : List Value) :
    (conditional room ev parts).ExtendsTo (conditional room' ev' parts) := by
  by_cases hl : parts.length = 3
  · obtain ⟨condition, yes, no, rfl⟩ := List.length_eq_three.mp hl
    exact (he condition).bind (branch_extendsTo hr he yes no)
  · rw [conditional_other hl, conditional_other hl]
    exact .refl _

theorem params_extendsTo (hr : room ≤ room') (vs : List Value) :
    (params room vs).ExtendsTo (params room' vs) := by
  induction vs with
  | nil => exact .refl _
  | cons v vs ih =>
      cases v with
      | symbol name => exact ih.bind fun names => .refl _
      | _ => exact reject_extendsTo hr _ _

theorem close_extendsTo (hr : room ≤ room') (names : List String) (body : Value) :
    (close room names body).ExtendsTo (close room' names body) := by
  cases body with
  | list items => exact .refl _
  | _ => exact reject_extendsTo hr _ _

theorem function_extendsTo (hr : room ≤ room') (parts : List Value) :
    (function room parts).ExtendsTo (function room' parts) := by
  by_cases hl : parts.length = 2
  · obtain ⟨parameters, body, rfl⟩ := List.length_eq_two.mp hl
    cases parameters with
    | list items =>
        exact (params_extendsTo hr items).bind fun names => close_extendsTo hr names body
    | _ => exact reject_extendsTo hr _ _
  · rw [function_other hl, function_other hl]
    exact .refl _

theorem arguments_extendsTo (he : ∀ e, (ev e).ExtendsTo (ev' e)) (es : List Value) :
    (arguments ev es).ExtendsTo (arguments ev' es) := by
  induction es with
  | nil => exact .refl _
  | cons e es ih => exact (he e).bind fun v => ih.bind fun vs => .refl _

theorem invoke_extendsTo (he : ∀ e, (ev e).ExtendsTo (ev' e))
    (ha : ∀ e, (evArgument e).ExtendsTo (evArgument' e)) (name : String) (params : List String)
    (body operands : List Value) :
    (invoke ev evArgument name params body operands).ExtendsTo
      (invoke ev' evArgument' name params body operands) := by
  refine (arguments_extendsTo ha _).bind fun args => ?_
  refine (Eval.ExtendsTo.refl _).bind fun frame => ?_
  -- the call is recorded before the body can run out of frames
  refine (Eval.ExtendsTo.refl _).bind fun _ => ?_
  exact (he (.list body)).within frame

theorem call_extendsTo (he : ∀ e, (ev e).ExtendsTo (ev' e))
    (ha : ∀ e, (evArgument e).ExtendsTo (evArgument' e)) (name : String) (operands : List Value) :
    (call ev evArgument name operands).ExtendsTo (call ev' evArgument' name operands) := by
  refine (Eval.ExtendsTo.refl (Eval.value? name)).bind fun found => ?_
  cases found with
  | none => exact .refl _
  | some v =>
      cases v with
      | lambda params body => exact invoke_extendsTo he ha name params body operands
      | _ => exact .refl _

theorem sequence_extendsTo (he : ∀ e, (ev e).ExtendsTo (ev' e)) (es : List Value) :
    (sequence ev es).ExtendsTo (sequence ev' es) := by
  rw [sequence_eq, sequence_eq]
  exact (arguments_extendsTo he es).bind fun vs => .refl _

/-- A list extends if its elements and, in a call, its arguments do. -/
theorem list_extendsTo (hr : room ≤ room') (he : ∀ e, (ev e).ExtendsTo (ev' e))
    (ha : ∀ e, (evArgument e).ExtendsTo (evArgument' e)) (items : List Value) :
    (list room ev evArgument items).ExtendsTo (list room' ev' evArgument' items) := by
  by_cases hs : ∃ name parts, items = .symbol name :: parts
  · obtain ⟨name, parts, rfl⟩ := hs
    cases hn : Head.ofName name with
    | operation => simpa only [list, hn] using operation_extendsTo hr he _ parts
    | definition => simpa only [list, hn] using definition_extendsTo hr he parts
    | conditional => simpa only [list, hn] using conditional_extendsTo hr he parts
    | function => simpa only [list, hn] using function_extendsTo hr parts
    | call => simpa only [list, hn] using call_extendsTo he ha name parts
  · simp only [not_exists] at hs
    rw [list_sequence hs, list_sequence hs]
    exact (sequence_extendsTo he items).bind fun values => .refl _

end Form

/-- More frames extend an evaluation. -/
theorem eval_extendsTo {limit limit' : Nat} (h : limit ≤ limit') (e : Value) :
    (eval limit e).ExtendsTo (eval limit' e) := by
  induction limit using Nat.strongRecOn generalizing limit' e with
  | ind limit ih =>
      match limit, limit', e, h with
      | 0, _, e, _ =>
          rw [eval_zero]
          exact Eval.extendsTo_of_exhausted _
      | 1, _, .list items, _ =>
          rw [eval_one_list]
          exact Eval.extendsTo_of_exhausted _
      | n + 2, n' + 2, .list items, h =>
          rw [eval_list, eval_list]
          refine Form.list_extendsTo (by omega) ?_ ?_ items
          · exact ih n (by omega) (by omega)
          · exact ih (n - 1) (by omega) (by omega)
      | _ + 1, _ + 1, .number _, _ | _ + 1, _ + 1, .symbol _, _ | _ + 1, _ + 1, .boolean _, _
      | _ + 1, _ + 1, .lambda .., _ | _ + 1, _ + 1, .void, _ | _ + 1, _ + 1, .null, _
      | _ + 1, _ + 1, .text _, _ =>
          simp only [eval]
          exact .refl _

/-- An evaluation that does not run out of frames is the same with more frames. -/
theorem eval_eq_of_le {limit limit' : Nat} {e : Value} {scope : Scope} (h : limit ≤ limit')
    (hne : (eval limit e scope).result ≠ .error .recursionLimit) :
    eval limit' e scope = eval limit e scope :=
  (eval_extendsTo h e scope).resolve_right fun he => hne he.1

end DynLisp

import DynLisp.Proofs.Evaluation.Arithmetic
import DynLisp.Proofs.Evaluation.Writes

/-! # The order of operands

An operand without definitions leaves its scope as it is, whatever is defined in the functions that
it calls. So it makes no difference to one operand whether the other has been evaluated before, and
an operation can be written the other way round if its operator can. Only the error that is reported
may be another one, since the left operand comes first. -/

namespace DynLisp

/-- The operators that can be written the other way round, each with the one that then takes its
place. -/
def mirrored : List (String × String) :=
  [("+", "+"), ("*", "*"), ("owo", "owo"), ("uwu", "uwu"), ("Owo", "owO"), ("O_o", "o_O")]

namespace Operator

/-- Arithmetic with the same exact result gives the same number, if any. -/
theorem apply_eq_ok_congr {op op' : Arithmetic} {a b c d : Int}
    (h : op.result? a b = op'.result? c d) (v : Value) :
    (arithmetic op).apply a b = .ok v ↔ (arithmetic op').apply c d = .ok v := by
  cases hr : op.result? a b with
  | none => simp [apply_of_none hr, apply_of_none (h ▸ hr)]
  | some n =>
      by_cases hn : Number.InRange n
      · rw [apply_of_inRange hr hn, apply_of_inRange (h ▸ hr) hn]
      · simp [apply_of_not_inRange hr hn, apply_of_not_inRange (h ▸ hr) hn]

theorem exists_of_mem_mirrored {name name' : String} (h : (name, name') ∈ mirrored) :
    ∃ op op' : Operator, op.name = name ∧ op'.name = name' ∧
      ∀ a b v, op.apply a b = .ok v ↔ op'.apply b a = .ok v := by
  simp only [mirrored, List.mem_cons, Prod.mk.injEq, List.not_mem_nil, or_false] at h
  rcases h with ⟨rfl, rfl⟩ | ⟨rfl, rfl⟩ | ⟨rfl, rfl⟩ | ⟨rfl, rfl⟩ | ⟨rfl, rfl⟩ | ⟨rfl, rfl⟩
  · refine ⟨.arithmetic .add, .arithmetic .add, rfl, rfl, fun a b => apply_eq_ok_congr ?_⟩
    simp only [Arithmetic.result?, Int.add_comm]
  · refine ⟨.arithmetic .mul, .arithmetic .mul, rfl, rfl, fun a b => apply_eq_ok_congr ?_⟩
    simp only [Arithmetic.result?, Int.mul_comm]
  · refine ⟨.comparison .eq, .comparison .eq, rfl, rfl, fun a b v => ?_⟩
    rw [apply, apply, Comparison.holds, Comparison.holds, BEq.comm]
  · refine ⟨.comparison .ne, .comparison .ne, rfl, rfl, fun a b v => ?_⟩
    rw [apply, apply, Comparison.holds, Comparison.holds, bne_comm]
  · exact ⟨.comparison .ge, .comparison .le, rfl, rfl, fun _ _ _ => Iff.rfl⟩
  · exact ⟨.comparison .gt, .comparison .lt, rfl, rfl, fun _ _ _ => Iff.rfl⟩

theorem name_ne_define (op : Operator) : op.name ≠ "define" := by
  rcases op with op | op <;> cases op <;> decide

end Operator

theorem Eval.result_bind_eq_ok_iff {α β : Type} {m : Eval α} {f : α → Eval β} {scope : Scope}
    {b : β} :
    ((m >>= f) scope).result = .ok b ↔
      ∃ a, (m scope).result = .ok a ∧ (f a (m scope).scope).result = .ok b := by
  cases h : (m scope).result with
  | error fault => simp [bind_of_error h]
  | ok a => simp [bind_of_ok h]

/-- Two values are combined if they are numbers. -/
theorem Form.result_combine_eq_ok_iff {room : Nat} {op : Operator} {x y v : Value} {scope : Scope} :
    (combine room (.symbol op.name) x y scope).result = .ok v ↔
      ∃ a b, x = .number a ∧ y = .number b ∧ op.apply a b = .ok v := by
  have hreject : ∀ (w : Value) (cause : Value → Fault),
      ((Eval.reject room w cause : Eval Value) scope).result ≠ .ok v := by
    intro w cause
    unfold Eval.reject
    split <;> exact nofun
  constructor
  · intro h
    cases x with
    | number a =>
        cases y with
        | number b =>
            rw [combine_numbers] at h
            exact ⟨a, b, rfl, rfl, h⟩
        | _ => exact absurd h (by simpa [combine, number] using hreject _ _)
    | _ => exact absurd h (by simpa [combine, number] using hreject _ _)
  · rintro ⟨a, b, rfl, rfl, h⟩
    rw [combine_numbers]
    exact h

/-- Without definitions in the left operand an operation succeeds if both operands are numbers in
the scope of the operation and the operator gives a value on them. -/
theorem result_operation_eq_ok_iff {op : Operator} {left right v : Value}
    (h : ∀ name, ¬ left.Defines name) (n : Nat) (scope : Scope) :
    (eval (n + 2) (.list [.symbol op.name, left, right]) scope).result = .ok v ↔
      ∃ a b, (eval n left scope).result = .ok (.number a) ∧
        (eval n right scope).result = .ok (.number b) ∧ op.apply a b = .ok v := by
  have ho : op.name ∈ operatorNames := mem_operatorNames_iff.mpr ⟨op, rfl⟩
  rw [eval_list, Form.list_operation _ ho, Form.operation_pair]
  simp only [Eval.result_bind_eq_ok_iff, Form.result_combine_eq_ok_iff,
    scope_eval_of_not_defines h]
  constructor
  · rintro ⟨_, hleft, _, hright, a, b, rfl, rfl, happly⟩
    exact ⟨a, b, hleft, hright, happly⟩
  · rintro ⟨a, b, hleft, hright, happly⟩
    exact ⟨_, hleft, _, hright, a, b, rfl, rfl, happly⟩

theorem result_eval_mirrored {op op' : Operator}
    (hop : ∀ m n v, op.apply m n = .ok v → op'.apply n m = .ok v) {a b v : Value}
    (ha : ∀ name, ¬ a.Defines name) (hb : ∀ name, ¬ b.Defines name) {limit : Nat} {scope : Scope}
    (h : (eval limit (.list [.symbol op.name, a, b]) scope).result = .ok v) :
    (eval limit (.list [.symbol op'.name, b, a]) scope).result = .ok v := by
  obtain ⟨k, rfl⟩ : ∃ k, limit = k + 2 := exists_limit_eq (by rw [h]; exact nofun)
  obtain ⟨m, n, hm, hn, happly⟩ := (result_operation_eq_ok_iff ha k scope).mp h
  exact (result_operation_eq_ok_iff hb k scope).mpr ⟨n, m, hn, hm, hop m n v happly⟩

theorem scope_eval_operation (op : Operator) {a b : Value} (ha : ∀ name, ¬ a.Defines name)
    (hb : ∀ name, ¬ b.Defines name) (limit : Nat) (scope : Scope) :
    (eval limit (.list [.symbol op.name, a, b]) scope).scope = scope := by
  refine scope_eval_of_not_defines (fun name => ?_) limit scope
  exact Value.not_defines_list op.name_ne_define (by simp [ha, hb])

/-- Without definitions in the operands an operation can be written the other way round: it has the
same value, if any, and in any case it leaves its scope as it is. -/
theorem eval_mirrored {op op' : String} (hop : (op, op') ∈ mirrored) {a b : Value}
    (ha : ∀ name, ¬ a.Defines name) (hb : ∀ name, ¬ b.Defines name) (limit : Nat)
    (scope : Scope) :
    let run := eval limit (.list [.symbol op, a, b]) scope
    let other := eval limit (.list [.symbol op', b, a]) scope
    (∀ v, run.result = .ok v ↔ other.result = .ok v) ∧ run.scope = scope ∧
      other.scope = scope := by
  obtain ⟨p, q, rfl, rfl, hmirror⟩ := Operator.exists_of_mem_mirrored hop
  refine ⟨fun v => ⟨?_, ?_⟩, ?_, ?_⟩
  · exact result_eval_mirrored (fun m n v => (hmirror m n v).mp) ha hb
  · exact result_eval_mirrored (fun m n v => (hmirror n m v).mpr) hb ha
  · exact scope_eval_operation p ha hb limit scope
  · exact scope_eval_operation q hb ha limit scope

/-- An operand is a call that makes a definition: `f` binds `y` in the frame of the call, where `g`
finds it. -/
theorem eval_mirrored_call :
    let f := Value.lambda ["x"]
      [.symbol "g", .list [.symbol "define", .symbol "y", .symbol "x"]]
    let g := Value.lambda ["z"] [.symbol "*", .symbol "y", .symbol "y"]
    let scope := Scope.ofFrame ⟨[("f", f), ("g", g)]⟩
    let call := Value.list [.symbol "f", .number 3]
    ("Owo", "owO") ∈ mirrored ∧ (∀ name, ¬ call.Defines name) ∧
      (eval 20 (.list [.symbol "Owo", call, .number 4]) scope).result = .ok (.boolean true) ∧
      (eval 20 (.list [.symbol "owO", .number 4, call]) scope).result = .ok (.boolean true) ∧
      (eval 20 (.list [.symbol "owO", .number 4, call]) scope).scope = scope := by
  intro f g scope call
  have hop : ("Owo", "owO") ∈ mirrored := by decide
  have hcall : ∀ name, ¬ call.Defines name := by
    intro name
    refine Value.not_defines_list (by decide) ?_
    intro v hv
    obtain rfl := List.mem_singleton.mp hv
    nofun
  have hrun : (eval 20 (.list [.symbol "Owo", call, .number 4]) scope).result =
      .ok (.boolean true) := rfl
  obtain ⟨hvalue, _, hscope⟩ := eval_mirrored hop hcall (b := .number 4) nofun 20 scope
  exact ⟨hop, hcall, hrun, (hvalue _).mp hrun, hscope⟩

end DynLisp

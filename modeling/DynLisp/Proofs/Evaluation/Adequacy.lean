import DynLisp.Proofs.Evaluation.Soundness

/-! # The evaluator follows the rules

With a number of frames that is large enough, the evaluator ends exactly as the rules say, and it
leaves the same scope. Where the rules say nothing, no number of frames is large enough. -/

namespace DynLisp

variable {scope scope' : Scope} {ending : Except Report Value}

/-- With enough frames an expression settles as given. -/
def Reaches (e : Value) (scope : Scope) (ending : Except Report Value) (scope' : Scope) : Prop :=
  ∃ bound, ∀ limit, bound ≤ limit → (eval limit e scope).Settles ending scope'

/-- With enough frames expressions settle in order as given. -/
def ReachesAll (es : List Value) (scope : Scope) (ending : Except Report (List Value))
    (scope' : Scope) : Prop :=
  ∃ bound, ∀ limit, bound ≤ limit → (Form.arguments (eval limit) es scope).Settles ending scope'

theorem Reaches.succ {e : Value} (h : ∀ n, (eval (n + 1) e scope).Settles ending scope') :
    Reaches e scope ending scope' := by
  refine ⟨1, fun limit hl => ?_⟩
  obtain ⟨n, rfl⟩ := Nat.exists_eq_add_of_le' hl
  exact h n

theorem Reaches.list {items : List Value} (bound : Nat)
    (h : ∀ n, bound ≤ n → (Form.list n (eval n) (eval (n - 1)) items scope).Settles ending scope') :
    Reaches (.list items) scope ending scope' := by
  refine ⟨bound + 2, fun limit hl => ?_⟩
  obtain ⟨n, rfl⟩ := Nat.exists_eq_add_of_le' (show 2 ≤ limit by omega)
  rw [eval_list]
  exact h n (by omega)

theorem Builds.reaches {parts : List Value} (h : Builds parts ending) (scope : Scope) :
    ∃ bound, ∀ room, bound ≤ room → (Form.function room parts scope).Settles ending scope := by
  cases h with
  | count hl =>
      refine ⟨0, fun room _ => ?_⟩
      rw [Form.function_other hl]
      exact Eval.settles_fail.mpr ⟨nofun, rfl, rfl⟩
  | @paramsNotList params body hp =>
      refine ⟨params.displayFrames, fun room hr => ?_⟩
      rw [Form.function_params body hp]
      exact Eval.settles_reject.mpr ⟨⟨hr, nofun⟩, rfl, rfl⟩
  | @paramNotSymbol names v rest body hv =>
      refine ⟨v.displayFrames, fun room hr => ?_⟩
      rw [Form.function_list, Form.params_other names rest hv, Eval.reject_bind]
      exact Eval.settles_reject.mpr ⟨⟨hr, nofun⟩, rfl, rfl⟩
  | @bodyNotList names body hb =>
      refine ⟨body.displayFrames, fun room hr => ?_⟩
      rw [Form.function_list, Form.params_symbols, pure_bind, Form.close_other names hb]
      exact Eval.settles_reject.mpr ⟨⟨hr, nofun⟩, rfl, rfl⟩
  | function names body =>
      refine ⟨0, fun room _ => ?_⟩
      rw [Form.function_list, Form.params_symbols, pure_bind]
      exact Eval.settles_pure.mpr ⟨rfl, rfl⟩

mutual

theorem Evaluates.reaches {e : Value} {scope scope' : Scope} {ending : Except Report Value} :
    Evaluates e scope ending scope' → Reaches e scope ending scope'
  | .constant _ he => .succ fun n => by
      rw [eval_constant he]
      exact Eval.settles_pure.mpr ⟨rfl, rfl⟩
  | .lambda params body _ => .succ fun n => by
      rw [eval_lambda]
      exact Eval.settles_pure.mpr ⟨rfl, rfl⟩
  | .symbol hv => .succ fun n => by
      rw [eval_symbol_of_some n hv]
      exact Eval.settles_pure.mpr ⟨rfl, rfl⟩
  | .undefinedSymbol hv => .succ fun n => by
      rw [eval_symbol_of_none n hv]
      exact Eval.settles_fail.mpr ⟨nofun, rfl, rfl⟩
  | .sequence hs h => by
      obtain ⟨bound, hb⟩ := h.reaches
      refine .list bound fun n hn => ?_
      simp only [Form.list_sequence hs, Form.sequence_eq, bind_assoc, pure_bind]
      exact Eval.settles_bind.mpr (.inr ⟨_, _, hb n hn, Eval.settles_pure.mpr ⟨rfl, rfl⟩⟩)
  | .sequenceError hs h => by
      obtain ⟨bound, hb⟩ := h.reaches
      refine .list bound fun n hn => ?_
      simp only [Form.list_sequence hs, Form.sequence_eq, bind_assoc, pure_bind]
      exact Eval.settles_bind.mpr (.inl ⟨_, hb n hn, rfl⟩)
  | .operationCount _ ho hl => .list 0 fun n _ => by
      rw [Form.list_operation _ ho, Form.operation_other hl]
      exact Eval.settles_fail.mpr ⟨nofun, rfl, rfl⟩
  | .operationLeft right ho h => by
      obtain ⟨bound, hb⟩ := h.reaches
      refine .list bound fun n hn => ?_
      rw [Form.list_operation _ ho, Form.operation_pair]
      exact Eval.settles_bind.mpr (.inl ⟨_, hb n hn, rfl⟩)
  | .operationRight ho hl h => by
      obtain ⟨bound, hb⟩ := hl.reaches
      obtain ⟨bound', hb'⟩ := h.reaches
      refine .list (max bound bound') fun n hn => ?_
      rw [Form.list_operation _ ho, Form.operation_pair]
      refine Eval.settles_bind.mpr (.inr ⟨_, _, hb n (by omega), ?_⟩)
      exact Eval.settles_bind.mpr (.inl ⟨_, hb' n (by omega), rfl⟩)
  | .operation (x := x) (y := y) ho hl hr h => by
      obtain ⟨bound, hb⟩ := hl.reaches
      obtain ⟨bound', hb'⟩ := hr.reaches
      -- the room that an operand needs to be displayed if it is no number
      refine .list (max (max bound bound') (max x.displayFrames y.displayFrames)) fun n hn => ?_
      rw [Form.list_operation _ ho, Form.operation_pair]
      refine Eval.settles_bind.mpr (.inr ⟨_, _, hb n (by omega), ?_⟩)
      refine Eval.settles_bind.mpr (.inr ⟨_, _, hb' n (by omega), ?_⟩)
      exact (Form.settles_combine ho).mpr ⟨⟨fun _ => by omega, fun _ _ _ => by omega⟩, h, rfl⟩
  | .definitionCount _ hl => .list 0 fun n _ => by
      rw [Form.list_definition, Form.definition_other hl]
      exact Eval.settles_fail.mpr ⟨nofun, rfl, rfl⟩
  | @Evaluates.definitionName name e _ hname => .list name.displayFrames fun n hn => by
      rw [Form.list_definition, Form.definition_name e hname]
      exact Eval.settles_reject.mpr ⟨⟨hn, nofun⟩, rfl, rfl⟩
  | .definitionError name h => by
      obtain ⟨bound, hb⟩ := h.reaches
      refine .list bound fun n hn => ?_
      rw [Form.list_definition, Form.definition_pair]
      exact Eval.settles_bind.mpr (.inl ⟨_, hb n hn, rfl⟩)
  | .definition name h => by
      obtain ⟨bound, hb⟩ := h.reaches
      refine .list bound fun n hn => ?_
      rw [Form.list_definition, Form.definition_pair]
      refine Eval.settles_bind.mpr (.inr ⟨_, _, hb n hn, ?_⟩)
      simp
  | .conditionalCount _ hl => .list 0 fun n _ => by
      rw [Form.list_conditional, Form.conditional_other hl]
      exact Eval.settles_fail.mpr ⟨nofun, rfl, rfl⟩
  | .conditionError yes no h => by
      obtain ⟨bound, hb⟩ := h.reaches
      refine .list bound fun n hn => ?_
      rw [Form.list_conditional, Form.conditional_triple]
      exact Eval.settles_bind.mpr (.inl ⟨_, hb n hn, rfl⟩)
  | .conditionNotBoolean (v := v) yes no hc hv => by
      obtain ⟨bound, hb⟩ := hc.reaches
      refine .list (max bound v.displayFrames) fun n hn => ?_
      rw [Form.list_conditional, Form.conditional_triple]
      refine Eval.settles_bind.mpr (.inr ⟨_, _, hb n (by omega), ?_⟩)
      rw [Form.branch_other hv]
      exact Eval.settles_reject.mpr ⟨⟨by omega, nofun⟩, rfl, rfl⟩
  | .conditionalYes no hc h => by
      obtain ⟨bound, hb⟩ := hc.reaches
      obtain ⟨bound', hb'⟩ := h.reaches
      refine .list (max bound bound') fun n hn => ?_
      rw [Form.list_conditional, Form.conditional_triple]
      exact Eval.settles_bind.mpr (.inr ⟨_, _, hb n (by omega), hb' n (by omega)⟩)
  | .conditionalNo yes hc h => by
      obtain ⟨bound, hb⟩ := hc.reaches
      obtain ⟨bound', hb'⟩ := h.reaches
      refine .list (max bound bound') fun n hn => ?_
      rw [Form.list_conditional, Form.conditional_triple]
      exact Eval.settles_bind.mpr (.inr ⟨_, _, hb n (by omega), hb' n (by omega)⟩)
  | .function scope h => by
      obtain ⟨bound, hb⟩ := h.reaches scope
      exact .list bound hb
  | .undefinedFunction operands hn hv => .list 0 fun n _ => by
      rw [Form.list_call operands hn, Form.call_undefined hv]
      exact Eval.settles_fail.mpr ⟨nofun, rfl, rfl⟩
  | .notFunction operands hn hv hf => .list 0 fun n _ => by
      rw [Form.list_call operands hn, Form.call_other hv hf]
      exact Eval.settles_fail.mpr ⟨nofun, rfl, rfl⟩
  | .argumentError hn hv h => by
      obtain ⟨bound, hb⟩ := h.reaches
      refine .list (bound + 1) fun n hl => ?_
      rw [Form.list_call _ hn, Form.call_function hv, Form.settles_invoke]
      exact .inl ⟨_, hb (n - 1) (by omega), rfl⟩
  | .missingArguments hn hv ha hl => by
      obtain ⟨bound, hb⟩ := ha.reaches
      refine .list (bound + 1) fun n hb' => ?_
      rw [Form.list_call _ hn, Form.call_function hv, Form.settles_invoke]
      exact .inr ⟨_, _, hb (n - 1) (by omega), .inl ⟨hl, rfl, rfl⟩⟩
  | .call hn hv ha hl h => by
      obtain ⟨bound, hb⟩ := ha.reaches
      obtain ⟨bound', hb'⟩ := h.reaches
      refine .list (max (bound + 1) bound') fun n hmax => ?_
      rw [Form.list_call _ hn, Form.call_function hv, Form.settles_invoke]
      exact .inr ⟨_, _, hb (n - 1) (by omega), .inr ⟨by omega, _, hb' n (by omega), rfl⟩⟩

theorem EvaluatesAll.reaches {es : List Value} {scope scope' : Scope}
    {ending : Except Report (List Value)} :
    EvaluatesAll es scope ending scope' → ReachesAll es scope ending scope'
  | .nil _ => ⟨0, fun _ _ => Eval.settles_pure.mpr ⟨rfl, rfl⟩⟩
  | .cons h hs => by
      obtain ⟨bound, hb⟩ := h.reaches
      obtain ⟨bound', hb'⟩ := hs.reaches
      refine ⟨max bound bound', fun n hn => ?_⟩
      refine Eval.settles_bind.mpr (.inr ⟨_, _, hb n (by omega), ?_⟩)
      exact Eval.settles_bind.mpr
        (.inr ⟨_, _, hb' n (by omega), Eval.settles_pure.mpr ⟨rfl, rfl⟩⟩)
  | .head es h => by
      obtain ⟨bound, hb⟩ := h.reaches
      exact ⟨bound, fun n hn => Eval.settles_bind.mpr (.inl ⟨_, hb n hn, rfl⟩)⟩
  | .tail h hs => by
      obtain ⟨bound, hb⟩ := h.reaches
      obtain ⟨bound', hb'⟩ := hs.reaches
      refine ⟨max bound bound', fun n hn => ?_⟩
      refine Eval.settles_bind.mpr (.inr ⟨_, _, hb n (by omega), ?_⟩)
      exact Eval.settles_bind.mpr (.inl ⟨_, hb' n (by omega), rfl⟩)

end

/-- An expression ends by a rule exactly if it ends so with some number of frames, and then it
leaves the same scope. No rule applies exactly if the frames run out whatever their number. -/
theorem evaluates_iff_eval (e : Value) (scope : Scope) :
    (∀ ending scope', Evaluates e scope ending scope' ↔
      ¬ IsExhausted ending ∧
        ∃ limit, (eval limit e scope).ending = ending ∧ (eval limit e scope).scope = scope') ∧
    ((∀ ending scope', ¬ Evaluates e scope ending scope') ↔
      ∀ limit, IsExhausted (eval limit e scope).ending) := by
  have hsettles : ∀ limit, ¬ IsExhausted (eval limit e scope).ending →
      Evaluates e scope (eval limit e scope).ending (eval limit e scope).scope := by
    intro limit hne
    rw [Run.isExhausted_iff] at hne
    exact eval_sound limit _ _ _ _ ⟨hne, rfl, rfl⟩
  have hreached : ∀ ending scope', Evaluates e scope ending scope' →
      ∃ limit, (eval limit e scope).Settles ending scope' := by
    intro ending scope' h
    obtain ⟨bound, hb⟩ := h.reaches
    exact ⟨bound, hb bound (Nat.le_refl bound)⟩
  refine ⟨fun ending scope' => ⟨fun h => ?_, ?_⟩, fun h limit => ?_, fun h ending scope' he => ?_⟩
  · obtain ⟨limit, hne, rfl, rfl⟩ := hreached _ _ h
    exact ⟨mt (Run.isExhausted_iff _).mp hne, limit, rfl, rfl⟩
  · rintro ⟨hne, limit, rfl, rfl⟩
    exact hsettles limit hne
  · by_contra hne
    exact h _ _ (hsettles limit hne)
  · obtain ⟨limit, hne, _, _⟩ := hreached _ _ he
    exact hne ((Run.isExhausted_iff _).mp (h limit))

end DynLisp

import DynLisp.Proofs.Evaluation.Soundness

/-! # What an evaluation reports

Every error of an evaluation is of one of ten kinds. All but the exhaustion of frames come from the
rules of evaluation, where each kind can be read off. A list is taken for an operation only if the
operators have its head among them, so no rule reports an unknown operator. -/

namespace DynLisp

/-- The labels of the errors that the rules of evaluation report. -/
def ruleLabels : List String :=
  ["OwoInvalidArgumentCount", "OwoInvalidArgumentType", "OwoInvalidConditionType",
    "OwoInvalidLambda", "OwoUndefinedSymbol", "OwoUndefinedFunction", "OwoInvalidFunction",
    "OwoDivisionByZero", "OwoIntegerOverflow"]

/-- An ending is no error, or one that a rule can report. -/
def IsRuled {α : Type} (ending : Except Report α) : Prop :=
  ∀ report, ending = .error report → report.label ∈ ruleLabels

variable {α : Type}

theorem isRuled_ok (a : α) : IsRuled (.ok a : Except Report α) := nofun

theorem isRuled_error {report : Report} (h : report.label ∈ ruleLabels) :
    IsRuled (.error report : Except Report α) := by
  intro other he
  cases he
  exact h

theorem IsRuled.error {β : Type} {report : Report} (h : IsRuled (.error report : Except Report α)) :
    IsRuled (.error report : Except Report β) :=
  isRuled_error (h report rfl)

theorem isRuled_elementCount (count : Nat) :
    IsRuled (.error (.elementCount count) : Except Report α) :=
  isRuled_error (by simp [Report.elementCount, ruleLabels])

theorem Operates.isRuled {op : String} {x y : Value} {ending : Except Report Value}
    (h : Operates op x y ending) : IsRuled ending := by
  cases h with
  | exact | compare => exact isRuled_ok _
  | overflow | byZero => exact isRuled_error (by simp [ruleLabels])
  | left | right => exact isRuled_error (by simp [Report.notNumber, ruleLabels])

theorem Builds.isRuled {parts : List Value} {ending : Except Report Value}
    (h : Builds parts ending) : IsRuled ending := by
  cases h with
  | count => exact isRuled_elementCount _
  | function => exact isRuled_ok _
  | paramsNotList | paramNotSymbol | bodyNotList => exact isRuled_error (by simp [ruleLabels])

mutual

theorem Evaluates.isRuled {e : Value} {scope scope' : Scope} {ending : Except Report Value} :
    Evaluates e scope ending scope' → IsRuled ending
  | .constant .. | .lambda .. | .symbol _ | .sequence .. | .definition .. => isRuled_ok _
  | .operationCount .. | .definitionCount .. => isRuled_elementCount _
  | .undefinedSymbol _ | .definitionName .. | .conditionalCount .. | .conditionNotBoolean ..
  | .undefinedFunction .. | .notFunction .. | .missingArguments .. =>
      isRuled_error (by simp [ruleLabels])
  -- errors of what is evaluated inside
  | .sequenceError _ h | .argumentError _ _ h => h.isRuled.error
  | .operationLeft _ _ h | .operationRight _ _ h | .definitionError _ h | .conditionError _ _ h
  | .conditionalYes _ _ h | .conditionalNo _ _ h | .call _ _ _ _ h => h.isRuled
  | .operation _ _ _ h => h.isRuled
  | .function _ h => h.isRuled

theorem EvaluatesAll.isRuled {es : List Value} {scope scope' : Scope}
    {ending : Except Report (List Value)} : EvaluatesAll es scope ending scope' → IsRuled ending
  | .nil _ | .cons .. => isRuled_ok _
  | .head _ h => h.isRuled.error
  | .tail _ hs => hs.isRuled

end

/-- An evaluation fails by a rule or because the frames have run out. -/
theorem label_eval {limit : Nat} {e : Value} {scope : Scope} {fault : Fault}
    (h : (eval limit e scope).result = .error fault) :
    fault.label ∈ "OwoRecursionError" :: ruleLabels := by
  by_cases hf : fault = .recursionLimit
  · subst hf
    exact List.mem_cons_self
  · have hne : (eval limit e scope).result ≠ .error .recursionLimit := by
      rw [h]
      intro he
      cases he
      exact hf rfl
    have hending : (eval limit e scope).ending = .error fault.report := by
      simp [Run.ending, h]
    have hruled := (eval_sound limit _ _ _ _ ⟨hne, hending, rfl⟩).isRuled
    exact List.mem_cons_of_mem _ (hruled fault.report rfl)

end DynLisp

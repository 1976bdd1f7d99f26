import DynLisp.Proofs.Evaluation.Adequacy
import DynLisp.Proofs.Evaluation.Names
import DynLisp.Proofs.Running.Domain

/-! # Names that are never reported undefined

A name that a scope binds stays bound: definitions only add bindings, and programs cannot bind a
name to `null`, which would hide it. So nothing that is evaluated there, at any depth of calls,
reports that the name is undefined. -/

namespace DynLisp

variable {name : String} {scope next scope' : Scope}

/-! ### Known names -/

/-- A name is bound in a scope of values that programs compute. -/
structure Scope.Knows (name : String) (scope : Scope) : Prop where
  binds : scope.Binds InDomain
  isSome_find? : (scope.find? name).isSome

namespace Scope

theorem Knows.exists_value? (h : scope.Knows name) : ∃ v, scope.value? name = some v := by
  obtain ⟨v, hv⟩ := Option.isSome_iff_exists.mp h.isSome_find?
  obtain ⟨frame, hframe, hfind⟩ := List.exists_of_findSome?_eq_some hv
  have hdomain : InDomain v := (h.binds frame hframe).of_find? hfind
  exact ⟨v, value?_eq_some_iff.mpr ⟨hv, hdomain.isProper.ne_null⟩⟩

theorem Knows.ne_of_value?_eq_none (h : scope.Knows name) {key : String}
    (hk : scope.value? key = none) : key ≠ name := by
  rintro rfl
  obtain ⟨v, hv⟩ := h.exists_value?
  simp [hv] at hk

theorem DefinesTo.isSome_find? (h : scope.DefinesTo next) (hs : (scope.find? name).isSome) :
    (next.find? name).isSome := by
  induction h with
  | refl => exact hs
  | define key v _ ih =>
      rw [find?_define]
      split
      · rfl
      · exact ih

theorem Knows.enter (h : scope.Knows name) {frame : Frame} (hf : frame.Binds InDomain) :
    (scope.enter frame).Knows name := by
  refine ⟨h.binds.enter hf, ?_⟩
  rw [find?_enter, Option.isSome_or, h.isSome_find?, Bool.or_true]

end Scope

/-- A computation that keeps to the domain and makes only definitions forgets no name. -/
theorem Run.Settles.knows {α : Type} {m : Eval α} {ending : Except Report α} {Q : α → Prop}
    (h : (m scope).Settles ending scope') (hm : Logic.domain.holds Q m) (hd : m.OnlyDefines)
    (hs : scope.Knows name) :
    scope'.Knows name ∧ ∀ a, ending = .ok a → Q a := by
  obtain ⟨_, rfl, rfl⟩ := h
  obtain ⟨hbinds, hresult⟩ := hm scope hs.binds
  refine ⟨⟨hbinds, (hd scope).isSome_find? hs.isSome_find?⟩, fun a ha => hresult a ?_⟩
  cases hr : (m scope).result with
  | error fault => simp [Run.ending, hr] at ha
  | ok b => simpa [Run.ending, hr] using ha

theorem Evaluates.knows {e : Value} {ending : Except Report Value}
    (h : Evaluates e scope ending scope') (he : Readable e) (hs : scope.Knows name) :
    scope'.Knows name := by
  obtain ⟨limit, hlimit⟩ := h.reaches
  have hm := Logic.domain.holds_eval (fun _ _ => trivial) he limit
  exact ((hlimit limit (Nat.le_refl _)).knows hm (eval_onlyDefines limit e) hs).1

theorem EvaluatesAll.knows {es : List Value} {ending : Except Report (List Value)}
    (h : EvaluatesAll es scope ending scope') (he : ∀ e ∈ es, Readable e)
    (hs : scope.Knows name) :
    scope'.Knows name ∧ ∀ vs, ending = .ok vs → ∀ v ∈ vs, InDomain v := by
  obtain ⟨limit, hlimit⟩ := h.reaches
  have hm := Logic.domain.holds_arguments
    (fun e he => Logic.domain.holds_eval (fun _ _ => trivial) he limit) he
  exact (hlimit limit (Nat.le_refl _)).knows hm (Form.arguments_onlyDefines limit es) hs

/-- The body of a function that is called can be written, and it runs where the name is known. -/
theorem EvaluatesAll.knows_body {operands args body : List Value} {params : List String}
    {key : String} (h : EvaluatesAll (operands.take params.length) scope (.ok args) next)
    (hv : scope.value? key = some (.lambda params body)) (ho : ∀ e ∈ operands, Readable e)
    (hs : scope.Knows name) :
    Readable (.list body) ∧ (next.enter (.ofParameters params args)).Knows name := by
  obtain ⟨hnext, hargs⟩ := h.knows (fun e he => ho e (List.mem_of_mem_take he)) hs
  constructor
  · cases hs.binds.of_value? hv with
    | lambda _ hb => exact hb
  · exact hnext.enter (Frame.binds_ofParameters params (hargs args rfl))

/-! ### Reports -/

/-- A report says that a name is undefined. -/
def Report.IsUndefined (name : String) (report : Report) : Prop :=
  report = ⟨"OwoUndefinedSymbol", "Undefined symbol: " ++ name⟩ ∨
    report = ⟨"OwoUndefinedFunction", "Undefined function: " ++ name⟩

/-- An ending does not report that a name is undefined. -/
def Spares {α : Type} (name : String) (ending : Except Report α) : Prop :=
  ∀ report, ending = .error report → ¬ report.IsUndefined name

section Spares

variable {α : Type}

theorem spares_ok (a : α) : Spares name (.ok a : Except Report α) := nofun

theorem spares_error {report : Report} (h : ¬ report.IsUndefined name) :
    Spares name (.error report : Except Report α) := by
  intro other he
  cases he
  exact h

theorem Spares.error {β : Type} {report : Report}
    (h : Spares name (.error report : Except Report α)) :
    Spares name (.error report : Except Report β) :=
  spares_error (h report rfl)

theorem spares_elementCount (count : Nat) :
    Spares name (.error (.elementCount count) : Except Report α) :=
  spares_error (by simp [Report.IsUndefined, Report.elementCount])

end Spares

theorem Operates.spares {op : String} {x y : Value} {ending : Except Report Value}
    (h : Operates op x y ending) : Spares name ending := by
  cases h with
  | exact | compare => exact spares_ok _
  | overflow | byZero => exact spares_error (by simp [Report.IsUndefined])
  | left | right => exact spares_error (by simp [Report.IsUndefined, Report.notNumber])

theorem Builds.spares {parts : List Value} {ending : Except Report Value}
    (h : Builds parts ending) : Spares name ending := by
  cases h with
  | count => exact spares_elementCount _
  | function => exact spares_ok _
  | paramsNotList | paramNotSymbol | bodyNotList =>
      exact spares_error (by simp [Report.IsUndefined])

mutual

/-- What is evaluated where a name is known does not report that it is undefined. -/
theorem Evaluates.spares {e : Value} {scope scope' : Scope} {ending : Except Report Value} :
    Evaluates e scope ending scope' → Readable e → scope.Knows name → Spares name ending
  | .constant .., _, _ | .lambda .., _, _ | .symbol _, _, _ | .sequence .., _, _
  | .definition .., _, _ => spares_ok _
  | .operationCount .., _, _ | .definitionCount .., _, _ => spares_elementCount _
  | .definitionName .., _, _ | .conditionalCount .., _, _ | .conditionNotBoolean .., _, _
  | .notFunction .., _, _ | .missingArguments .., _, _ =>
      spares_error (by simp [Report.IsUndefined])
  | .function _ h, _, _ => h.spares
  | .operation _ _ _ h, _, _ => h.spares
  -- a name without a value is another one
  | .undefinedSymbol hv, _, hs | .undefinedFunction _ _ hv, _, hs =>
      spares_error (by simp [Report.IsUndefined, hs.ne_of_value?_eq_none hv])
  -- errors of what is evaluated inside
  | .sequenceError _ h, he, hs => (h.spares (readable_list_iff.mp he) hs).error
  | .operationLeft _ _ h, he, hs | .definitionError _ h, he, hs | .conditionError _ _ h, he, hs =>
      h.spares (readable_list_iff.mp he _ (by simp)) hs
  | .operationRight _ hl h, he, hs | .conditionalYes _ hl h, he, hs
  | .conditionalNo _ hl h, he, hs => by
      have hitems := readable_list_iff.mp he
      exact h.spares (hitems _ (by simp)) (hl.knows (hitems _ (by simp)) hs)
  | .argumentError _ _ h, he, hs => by
      have hitems := readable_list_iff.mp he
      refine (h.spares (fun e hmem => hitems e ?_) hs).error
      exact List.mem_cons_of_mem _ (List.mem_of_mem_take hmem)
  | .call _ hv ha _ h, he, hs => by
      have hoperands := (List.forall_mem_cons.mp (readable_list_iff.mp he)).2
      obtain ⟨hbody, hinner⟩ := ha.knows_body hv hoperands hs
      exact h.spares hbody hinner

theorem EvaluatesAll.spares {es : List Value} {scope scope' : Scope}
    {ending : Except Report (List Value)} :
    EvaluatesAll es scope ending scope' → (∀ e ∈ es, Readable e) → scope.Knows name →
      Spares name ending
  | .nil _, _, _ | .cons .., _, _ => spares_ok _
  | .head _ h, he, hs => (h.spares (he _ List.mem_cons_self) hs).error
  | .tail h hs, he, hk => by
      obtain ⟨hhead, htail⟩ := List.forall_mem_cons.mp he
      exact hs.spares htail (h.knows hhead hk)

end

/-! ### Evaluation where a name is known -/

/-- A run that does not report a name as undefined has no such fault. -/
theorem Run.fault_ne_undefined {α : Type} {run : Run α} {fault : Fault}
    (h : ∀ ending scope', run.Settles ending scope' → Spares name ending)
    (hr : run.result = .error fault) :
    fault ≠ .undefinedSymbol name ∧ fault ≠ .undefinedFunction name := by
  have hspares : fault ≠ .recursionLimit → ¬ fault.report.IsUndefined name := by
    intro hne
    have hsettles : run.Settles (.error fault.report) run.scope :=
      ⟨by simpa [hr] using hne, by simp [ending, hr], rfl⟩
    exact h _ _ hsettles fault.report rfl
  constructor
  · rintro rfl
    exact hspares (by simp) (.inl rfl)
  · rintro rfl
    exact hspares (by simp) (.inr rfl)

theorem Scope.Knows.eval_spares (hs : scope.Knows name) {e : Value} (he : Readable e) (limit : Nat)
    {ending : Except Report Value} (h : (eval limit e scope).Settles ending scope') :
    Spares name ending :=
  (eval_sound limit _ _ _ _ h).spares he hs

theorem Scope.Knows.call_spares (hs : scope.Knows name) {operands : List Value}
    (ho : ∀ e ∈ operands, Readable e) (limit limit' : Nat) {ending : Except Report Value}
    (h : (Form.call (eval limit) (eval limit') name operands scope).Settles ending scope') :
    Spares name ending := by
  obtain ⟨v, hv⟩ := hs.exists_value?
  by_cases hf : ∃ params body, v = .lambda params body
  · obtain ⟨params, body, rfl⟩ := hf
    rw [Form.call_function hv, Form.settles_invoke] at h
    rcases h with ⟨report, ha, rfl⟩ | ⟨args, next, ha, ⟨_, rfl, _⟩ | ⟨_, inner, hb, _⟩⟩
    · have hargs := Form.arguments_sound (eval_sound limit') ha
      exact (hargs.spares (fun e he => ho e (List.mem_of_mem_take he)) hs).error
    · exact spares_error (by simp [Report.IsUndefined, Fault.report, Fault.label])
    · have hargs := Form.arguments_sound (eval_sound limit') ha
      obtain ⟨hbody, hinner⟩ := hargs.knows_body hv ho hs
      exact hinner.eval_spares hbody limit hb
  · rw [Form.call_other hv fun params body he => hf ⟨params, body, he⟩] at h
    obtain ⟨_, rfl, _⟩ := Eval.settles_fail.mp h
    exact spares_error (by simp [Report.IsUndefined, Fault.report, Fault.label])

/-- A name has a value in a scope, and nothing that is evaluated there reports it as undefined. -/
structure Scope.Provides (scope : Scope) (name : String) : Prop where
  eval_symbol : ∃ v, ∀ limit, (eval (limit + 1) (.symbol name) scope).result = .ok v
  call_ne : ∀ (limit limit' : Nat) (operands : List Value) (fault : Fault),
    (∀ e ∈ operands, Readable e) →
      (Form.call (eval limit) (eval limit') name operands scope).result = .error fault →
        fault ≠ .undefinedFunction name
  run_ne : ∀ (interpreter : Interpreter) (source : String) (fault : Fault),
    (interpreter.run source scope).result = .error (.faulty fault) →
      fault ≠ .undefinedSymbol name ∧ fault ≠ .undefinedFunction name

theorem Interpreter.run_ne_undefined (interpreter : Interpreter) {source : String} {fault : Fault}
    (hs : scope.Knows name)
    (h : (interpreter.run source scope).result = .error (.faulty fault)) :
    fault ≠ .undefinedSymbol name ∧ fault ≠ .undefinedFunction name := by
  unfold run at h
  cases hp : Program.parse source with
  | error cause => simp [hp] at h
  | ok program =>
      simp only [hp, runProgram] at h
      split at h
      · cases h
        simp
      · cases hr : (eval interpreter.limit (.list program) scope).result with
        | ok v => simp [hr] at h
        | error cause =>
            obtain rfl : cause = fault := by simpa [hr] using h
            refine Run.fault_ne_undefined (fun _ _ hsettles => ?_) hr
            exact hs.eval_spares (Program.readable_of_parse hp) _ hsettles

theorem Scope.Knows.provides (hs : scope.Knows name) : scope.Provides name where
  eval_symbol := by
    obtain ⟨v, hv⟩ := hs.exists_value?
    exact ⟨v, fun limit => by rw [eval_symbol_of_some limit hv]; rfl⟩
  call_ne limit limit' operands fault ho hr :=
    (Run.fault_ne_undefined (fun _ _ h => hs.call_spares ho limit limit' h) hr).2
  run_ne interpreter _ _ h := interpreter.run_ne_undefined hs h

end DynLisp

import DynLisp.Proofs.Running.History
import DynLisp.Proofs.Running.Presence

/-! # Growth of environments

Whatever is done in an environment, no frame loses a name or moves one: a name that is bound again
keeps its place and a new one comes last. Among programs that run one after another, what one of them
has bound stays bound for all that follow. -/

namespace DynLisp

theorem Scope.DefinesTo.growsTo {scope next : Scope} (h : scope.DefinesTo next) :
    scope.frame.GrowsTo next.frame := by
  induction h with
  | refl => exact .refl _
  | define name v _ ih => exact ih.trans (Frame.growsTo_set _ name v)

/-! ### Stores -/

namespace Store

variable {store : Store} {k : Nat}

/-- Every frame of a store has grown, or is as it was. -/
def GrowsTo (store next : Store) : Prop :=
  ∀ j frame, store.frame? j = some frame →
    ∃ grown, next.frame? j = some grown ∧ frame.GrowsTo grown

theorem GrowsTo.refl (store : Store) : store.GrowsTo store :=
  fun _ frame h => ⟨frame, h, .refl frame⟩

theorem growsTo_setFrame {frame grown : Frame} (h : store.frame? k = some frame)
    (hg : frame.GrowsTo grown) : store.GrowsTo (store.setFrame k grown) := by
  intro j other hj
  by_cases hjk : j = k
  · subst hjk
    obtain rfl : frame = other := Option.some.inj (h.symm.trans hj)
    refine ⟨grown, ?_, hg⟩
    obtain ⟨node, hnode, _⟩ := Option.map_eq_some_iff.mp h
    simp [frame?, setFrame, hnode]
  · refine ⟨other, ?_, .refl other⟩
    rwa [frame?_setFrame_of_ne _ hjk]

theorem growsTo_add (frame : Frame) : store.GrowsTo (store.add k frame) := by
  intro j other hj
  have hlt : j ≠ store.size := by
    rintro rfl
    simp [frame?_eq_none_iff.mpr] at hj
  refine ⟨other, ?_, .refl other⟩
  rwa [frame?_add, if_neg hlt]

/-- The innermost frame of the scope of an environment is its own. -/
theorem frame?_eq_of_scope? (h : store.Ordered) (hk : k < store.size) {scope : Scope}
    (hs : store.scope? k = some scope) : store.frame? k = some scope.frame := by
  obtain ⟨rest, hpath, _⟩ := exists_path_eq_cons h hk
  obtain ⟨frame, hframe⟩ := exists_frame? hk
  simp only [scope?, hpath, List.filterMap_cons, hframe, Option.some.injEq] at hs
  rw [hframe, ← hs]

/-- Work in a scope that only makes definitions lets one frame grow. -/
theorem exists_inScope_growsTo {α : Type} (h : store.Ordered) (hk : k < store.size)
    {act : Scope → α × Scope} (hact : ∀ scope : Scope, scope.DefinesTo (act scope).2) :
    ∃ a next, store.inScope k act = some (a, next) ∧ store.GrowsTo next := by
  obtain ⟨scope, hscope, hset⟩ := exists_scope? h hk
  refine ⟨(act scope).1, store.setFrame k (act scope).2.frame, ?_, ?_⟩
  · simp [inScope, hscope, hset _ (hact scope).outer_eq]
  · exact growsTo_setFrame (frame?_eq_of_scope? h hk hscope) (hact scope).growsTo

end Store

/-! ### Programs -/

namespace Interpreter

theorem runAll_definesTo (interpreter : Interpreter) (sources : List String) (scope : Scope) :
    scope.DefinesTo (interpreter.runAll sources scope).2 := by
  induction sources generalizing scope with
  | nil => exact .refl
  | cons source sources ih => exact (interpreter.run_definesTo source scope).trans (ih _)

theorem runAll_append (interpreter : Interpreter) (before after : List String) (scope : Scope) :
    (interpreter.runAll (before ++ after) scope).2 =
      (interpreter.runAll after (interpreter.runAll before scope).2).2 := by
  induction before generalizing scope with
  | nil => rfl
  | cons source before ih => exact ih (interpreter.run source scope).scope

/-- Of what programs have bound nothing is forgotten. -/
theorem knows_runAll (interpreter : Interpreter) {before : List String} {name : String}
    (h : name ∈ (interpreter.runAll before (.ofFrame .empty)).2.frame.names) (after : List String) :
    (interpreter.runAll (before ++ after) (.ofFrame .empty)).2.Knows name := by
  have hempty : (Scope.ofFrame .empty).Binds InDomain :=
    List.forall_mem_singleton.mpr Frame.binds_empty
  refine ⟨(interpreter.runAll_keeps_domain _ hempty).1, ?_⟩
  have hgrows := (interpreter.runAll_definesTo after
    (interpreter.runAll before (.ofFrame .empty)).2).growsTo
  rw [runAll_append, Scope.find?_eq_or, Option.isSome_or, Bool.or_eq_true]
  refine .inl (Option.ne_none_iff_isSome.mp ?_)
  rw [Ne, Frame.find?_eq_none_iff, not_not]
  exact hgrows.mem_names h

end Interpreter

/-! ### Actions -/

namespace Session

variable {store : Store} {k : Nat}

/-- An action in an environment is answered, and no frame loses a name by it. -/
theorem exists_step_growsTo (h : store.Ordered) (hk : k < store.size) (interpreter : Interpreter)
    (action : Action) :
    ∃ reply next, step interpreter store k action = some (reply, next) ∧ store.GrowsTo next := by
  obtain ⟨frame, hframe⟩ := Store.exists_frame? hk
  obtain ⟨scope, hscope, _⟩ := Store.exists_scope? h hk
  have hcompute : ∀ m : Eval Value, m.OnlyDefines →
      ∃ reply next, compute store k m = some (reply, next) ∧ store.GrowsTo next :=
    fun m hm => Store.exists_inScope_growsTo h hk hm
  cases action with
  | run source =>
      simp only [step]
      exact Store.exists_inScope_growsTo h hk (interpreter.run_definesTo source)
  | evaluate expression => exact hcompute _ (eval_onlyDefines _ _)
  | operate operator operands => exact hcompute _ (Form.operation_onlyDefines _ _ _ _)
  | call name operands => exact hcompute _ (Form.call_onlyDefines _ _ _ _)
  | extend =>
      simp only [step, hframe, Option.map_some]
      exact ⟨_, _, rfl, Store.growsTo_add _⟩
  | bind params args =>
      simp only [step, hframe, Option.map_some]
      cases Frame.ofCall params args with
      | ok inner => exact ⟨_, _, rfl, Store.growsTo_add inner⟩
      | error fault => exact ⟨_, _, rfl, .refl store⟩
  | set name v =>
      simp only [step, hframe, Option.map_some, Store.set_eq_setFrame hframe]
      exact ⟨_, _, rfl, Store.growsTo_setFrame hframe (frame.growsTo_set name.name v)⟩
  | get name | has name | inspectFrame | inspectScope =>
      simp only [step, hframe, hscope, Option.map_some]
      exact ⟨_, _, rfl, .refl store⟩

end Session

/-- Every action is answered and keeps the names of all frames, in their order and without adding
one twice. A name that one of some programs has bound has a value after all that follow, however they
end, and no program reports it as undefined then. -/
theorem names_stay :
    (∀ (interpreter : Interpreter) (store : Store) (k : Nat) (action : Action),
      store.Ordered → k < store.size →
        ∃ reply next, Session.step interpreter store k action = some (reply, next) ∧
          store.GrowsTo next) ∧
    ∀ (interpreter : Interpreter) (before after : List String) (name : String),
      name ∈ (interpreter.runAll before (.ofFrame .empty)).2.frame.names →
        (interpreter.runAll (before ++ after) (.ofFrame .empty)).2.Provides name := by
  constructor
  · intro interpreter store k action h hk
    exact Session.exists_step_growsTo h hk interpreter action
  · intro interpreter before after name h
    exact (interpreter.knows_runAll h after).provides

/-- A program that fails has bound names before. A function whose parameter has its own name stays
bound after a program that fails to bind it again. -/
theorem names_stay_failing :
    let store := Store.fresh.set 0 "x" (.number 1)
    let before := ["(define f (lambda (f) (f)))"]
    let root := (Interpreter.runAll ⟨16, false⟩ (before ++ ["(define f (g))"]) (.ofFrame .empty)).2
    (store.Ordered ∧ ∃ reply next grown,
      Session.step ⟨16, false⟩ store 0 (.run "((define y x) (define x 2) (z))") =
          some (reply, next) ∧
        next.frame? 0 = some grown ∧ ["x"] <+: grown.names ∧ grown.names.Nodup) ∧
      "f" ∈ (Interpreter.runAll ⟨16, false⟩ before (.ofFrame .empty)).2.frame.names ∧
      root.Provides "f" := by
  intro store before root
  have h : store.Ordered :=
    Session.Reachable.ordered (.step .standard .fresh
      (show Session.step _ _ 0 (.set (.text "x") (.number 1)) = some (.done, store) from rfl))
  obtain ⟨reply, next, hstep, hgrows⟩ := names_stay.1 ⟨16, false⟩ store 0
    (.run "((define y x) (define x 2) (z))") h (by decide)
  obtain ⟨grown, hframe, hnames⟩ := hgrows 0 _ rfl
  have hf : "f" ∈ (Interpreter.runAll ⟨16, false⟩ before (.ofFrame .empty)).2.frame.names := by
    decide +kernel
  refine ⟨⟨h, reply, next, grown, hstep, hframe, hnames.names_prefix, ?_⟩, hf, ?_⟩
  · exact hnames.nodup_names (by decide)
  · exact names_stay.2 ⟨16, false⟩ before ["(define f (g))"] "f" hf

end DynLisp

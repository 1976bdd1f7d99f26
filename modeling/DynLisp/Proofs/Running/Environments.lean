import DynLisp.Proofs.Evaluation.Locality
import DynLisp.Session

/-! # Environments that an evaluation leaves alone

In a store that work on environments can lead to, an environment is made after the one around it, so
the environments from one outward are all different. An evaluation in one of them can then change no
frame but its own, and it makes no environment. -/

namespace DynLisp

namespace Store

variable {store : Store} {k : Nat}

/-- The environment around an environment. -/
def parent? (store : Store) (k : Nat) : Option Nat := store.nodes[k]?.bind Node.parent

/-- Every environment comes after the one around it. -/
def Ordered (store : Store) : Prop := ∀ k parent, store.parent? k = some parent → parent < k

/-! ### Frames of a store -/

theorem frame?_eq_none_iff : store.frame? k = none ↔ store.size ≤ k := by
  simp [frame?, size]

theorem exists_frame? (hk : k < store.size) : ∃ frame, store.frame? k = some frame := by
  rw [← Option.ne_none_iff_exists', Ne, frame?_eq_none_iff]
  omega

@[simp]
theorem size_setFrame (frame : Frame) : (store.setFrame k frame).size = store.size := by
  simp [setFrame, size]

@[simp]
theorem parent?_setFrame (frame : Frame) (j : Nat) :
    (store.setFrame k frame).parent? j = store.parent? j := by
  simp only [parent?, setFrame, List.getElem?_modify]
  cases store.nodes[j]? with
  | none => rfl
  | some node =>
      by_cases h : k = j
      · simp [h]
      · simp [h]

theorem frame?_setFrame_of_ne {j : Nat} (frame : Frame) (h : j ≠ k) :
    (store.setFrame k frame).frame? j = store.frame? j := by
  simp only [frame?, setFrame, List.getElem?_modify_ne _ _ h.symm]

theorem setFrame_self {frame : Frame} (h : store.frame? k = some frame) :
    store.setFrame k frame = store := by
  obtain ⟨node, hnode, rfl⟩ := Option.map_eq_some_iff.mp h
  have hn : store.nodes.modify k (fun n => { n with frame := node.frame }) = store.nodes := by
    apply List.ext_getElem?
    intro j
    by_cases hj : k = j
    · subst hj
      simp [hnode]
    · rw [List.getElem?_modify_ne _ _ hj]
  simp only [setFrame, hn]

theorem set_eq_setFrame {frame : Frame} (h : store.frame? k = some frame) (name : String)
    (v : Value) : store.set k name v = store.setFrame k (frame.set name v) := by
  obtain ⟨node, hnode, rfl⟩ := Option.map_eq_some_iff.mp h
  simp only [set, setFrame, mk.injEq]
  apply List.ext_getElem?
  intro j
  by_cases hj : k = j
  · subst hj
    simp [hnode]
  · rw [List.getElem?_modify_ne _ _ hj, List.getElem?_modify_ne _ _ hj]

theorem Ordered.setFrame (h : store.Ordered) (frame : Frame) :
    (store.setFrame k frame).Ordered := by
  intro j parent hp
  rw [parent?_setFrame] at hp
  exact h j parent hp

theorem Ordered.add (h : store.Ordered) (hk : k < store.size) (frame : Frame) :
    (store.add k frame).Ordered := by
  intro j parent hp
  simp only [parent?, Store.add, List.getElem?_append] at hp
  split at hp
  · exact h j parent hp
  · rw [List.getElem?_singleton] at hp
    split at hp
    · obtain rfl : k = parent := by simpa using hp
      simp only [size] at hk
      omega
    · simp at hp

/-! ### Scopes of a store -/

theorem le_of_mem_pathOf (h : store.Ordered) {count j : Nat} (hj : j ∈ store.pathOf count k) :
    j ≤ k := by
  induction count generalizing k with
  | zero => simp [pathOf] at hj
  | succ count ih =>
      rw [pathOf] at hj
      split at hj
      · simp at hj
      · simp_all
      · rename_i frame parent hnode
        have hp : parent < k := h k parent (by simp [parent?, hnode])
        rcases List.mem_cons.mp hj with rfl | hj
        · exact Nat.le_refl _
        · exact Nat.le_trans (ih hj) (Nat.le_of_lt hp)

/-- An environment is the first on its way outward, and those after it were made before. -/
theorem exists_path_eq_cons (h : store.Ordered) (hk : k < store.size) :
    ∃ rest, store.path k = k :: rest ∧ ∀ j ∈ rest, j < k := by
  obtain ⟨⟨frame, parent⟩, hnode⟩ : ∃ node, store.nodes[k]? = some node :=
    ⟨_, List.getElem?_eq_getElem hk⟩
  cases parent with
  | none => exact ⟨[], by simp [path, pathOf, hnode], by simp⟩
  | some parent =>
      have hp : parent < k := h k parent (by simp [parent?, hnode])
      refine ⟨store.pathOf k parent, by simp [path, pathOf, hnode], fun j hj => ?_⟩
      exact Nat.lt_of_le_of_lt (le_of_mem_pathOf h hj) hp

theorem scope?_eq_none (hk : store.size ≤ k) : store.scope? k = none := by
  have hnode : store.nodes[k]? = none := List.getElem?_eq_none hk
  simp [scope?, path, pathOf, hnode]

/-- Writing back the frames that environments have changes nothing. -/
theorem foldl_setFrame_self {ks : List Nat} (h : ∀ j ∈ ks, j < store.size) :
    (ks.zip (ks.filterMap store.frame?)).foldl (fun store entry => store.setFrame entry.1 entry.2)
      store = store := by
  induction ks with
  | nil => rfl
  | cons j ks ih =>
      obtain ⟨hj, hks⟩ := List.forall_mem_cons.mp h
      obtain ⟨frame, hframe⟩ := exists_frame? hj
      simp only [List.filterMap_cons, hframe, List.zip_cons_cons, List.foldl_cons,
        setFrame_self hframe]
      exact ih hks

/-- An environment has a scope, and a scope with the same outer frames is written back to it by
setting one frame. -/
theorem exists_scope? (h : store.Ordered) (hk : k < store.size) :
    ∃ scope, store.scope? k = some scope ∧
      ∀ next : Scope, next.outer = scope.outer →
        store.setScope k next = store.setFrame k next.frame := by
  obtain ⟨rest, hpath, hrest⟩ := exists_path_eq_cons h hk
  obtain ⟨frame, hframe⟩ := exists_frame? hk
  refine ⟨⟨frame, rest.filterMap store.frame?⟩, by simp [scope?, hpath, hframe], ?_⟩
  intro next ho
  have hsame : rest.filterMap store.frame? =
      rest.filterMap (store.setFrame k next.frame).frame? := by
    refine List.filterMap_congr fun j hj => ?_
    rw [frame?_setFrame_of_ne _ (Nat.ne_of_lt (hrest j hj))]
  have hlt : ∀ j ∈ rest, j < (store.setFrame k next.frame).size := by
    intro j hj
    rw [size_setFrame]
    exact Nat.lt_trans (hrest j hj) hk
  simp only [setScope, hpath, Scope.frames, ho, List.zip_cons_cons, List.foldl_cons, hsame]
  exact foldl_setFrame_self hlt

/-- Work in a scope that leaves the outer frames alone sets one frame of the store. -/
theorem exists_inScope_eq {α : Type} (h : store.Ordered) (hk : k < store.size)
    {act : Scope → α × Scope} (hact : ∀ scope, (act scope).2.outer = scope.outer) :
    ∃ a frame, store.inScope k act = some (a, store.setFrame k frame) := by
  obtain ⟨scope, hscope, hset⟩ := exists_scope? h hk
  refine ⟨(act scope).1, (act scope).2.frame, ?_⟩
  simp [inScope, hscope, hset _ (hact scope)]

end Store

/-! ### Actions -/

theorem Interpreter.run_definesTo (interpreter : Interpreter) (source : String) (scope : Scope) :
    scope.DefinesTo (interpreter.run source scope).scope := by
  unfold run
  cases Program.parse source with
  | error fault => exact .refl
  | ok program =>
      simp only [runProgram]
      split
      · exact .refl
      · exact eval_onlyDefines _ _ scope

theorem Interpreter.outer_run (interpreter : Interpreter) (source : String) (scope : Scope) :
    (interpreter.run source scope).scope.outer = scope.outer :=
  (interpreter.run_definesTo source scope).outer_eq

/-- The actions that evaluate something. -/
inductive Action.Evaluates : Action → Prop where
  | run (source) : Evaluates (.run source)
  | evaluate (expression) : Evaluates (.evaluate expression)
  | operate (operator operands) : Evaluates (.operate operator operands)
  | call (name operands) : Evaluates (.call name operands)

namespace Session

variable {store : Store} {k : Nat}

theorem exists_compute_eq (h : store.Ordered) (hk : k < store.size) {m : Eval Value}
    (hm : m.OnlyDefines) :
    ∃ reply frame, compute store k m = some (reply, store.setFrame k frame) :=
  Store.exists_inScope_eq h hk fun scope => (hm scope).outer_eq

/-- An evaluation in an environment is answered and sets the frame of this environment. -/
theorem exists_step_eq (h : store.Ordered) (hk : k < store.size) (interpreter : Interpreter)
    {action : Action} (ha : action.Evaluates) :
    ∃ reply frame, step interpreter store k action = some (reply, store.setFrame k frame) := by
  cases ha with
  | run source =>
      simp only [step]
      exact Store.exists_inScope_eq h hk (interpreter.outer_run source)
  | evaluate expression => exact exists_compute_eq h hk (eval_onlyDefines _ _)
  | operate operator operands => exact exists_compute_eq h hk (Form.operation_onlyDefines _ _ _ _)
  | call name operands => exact exists_compute_eq h hk (Form.call_onlyDefines _ _ _ _)

/-- A store that actions lead to, starting from one environment that binds nothing. -/
inductive Reachable : Store → Prop where
  | fresh : Reachable .fresh
  | step {store k action reply next} (interpreter) (h : Reachable store)
      (hs : step interpreter store k action = some (reply, next)) : Reachable next

theorem step_eq_none (hk : store.size ≤ k) (interpreter : Interpreter) (action : Action) :
    step interpreter store k action = none := by
  have hframe := Store.frame?_eq_none_iff.mpr hk
  have hscope := Store.scope?_eq_none hk
  cases action <;> simp [step, compute, Store.inScope, hframe, hscope]

/-- What an action can do to a store: it sets a frame or makes an environment. -/
theorem step_cases (h : store.Ordered) {interpreter : Interpreter} {action : Action} {reply : Reply}
    {next : Store} (hs : step interpreter store k action = some (reply, next)) :
    k < store.size ∧
      ((∃ frame, next = store.setFrame k frame) ∨ ∃ frame, next = store.add k frame) := by
  have hk : k < store.size := by
    by_contra hk
    simp [step_eq_none (Nat.not_lt.mp hk)] at hs
  refine ⟨hk, ?_⟩
  obtain ⟨frame, hframe⟩ := Store.exists_frame? hk
  obtain ⟨scope, hscope, _⟩ := Store.exists_scope? h hk
  have hevaluates : action.Evaluates → ∃ frame, next = store.setFrame k frame := by
    intro ha
    obtain ⟨reply', frame', he⟩ := exists_step_eq h hk interpreter ha
    rw [hs] at he
    exact ⟨frame', (Prod.mk.inj (Option.some.inj he)).2⟩
  have hkeeps : next = store → ∃ frame, next = store.setFrame k frame :=
    fun he => ⟨frame, by rw [he, Store.setFrame_self hframe]⟩
  cases action with
  | run source => exact .inl (hevaluates (.run source))
  | evaluate expression => exact .inl (hevaluates (.evaluate expression))
  | operate operator operands => exact .inl (hevaluates (.operate operator operands))
  | call name operands => exact .inl (hevaluates (.call name operands))
  | extend =>
      simp only [step, hframe, Option.map_some, Option.some.injEq, Prod.mk.injEq] at hs
      exact .inr ⟨.empty, hs.2.symm⟩
  | bind params args =>
      simp only [step, hframe, Option.map_some, Option.some.injEq] at hs
      cases hcall : Frame.ofCall params args with
      | ok inner => exact .inr ⟨inner, by simp_all⟩
      | error fault => exact .inl (hkeeps (by simp_all))
  | set name v =>
      simp only [step, hframe, Option.map_some, Option.some.injEq, Prod.mk.injEq] at hs
      exact .inl ⟨_, by rw [← hs.2, Store.set_eq_setFrame hframe]⟩
  | get name | has name | inspectFrame | inspectScope =>
      simp only [step, hframe, hscope, Option.map_some, Option.some.injEq, Prod.mk.injEq] at hs
      exact .inl (hkeeps hs.2.symm)

theorem Reachable.ordered {store : Store} (h : Reachable store) : store.Ordered := by
  induction h with
  | fresh =>
      intro k parent hp
      cases k <;> simp [Store.parent?, Store.fresh] at hp
  | step interpreter _ hs ih =>
      obtain ⟨hk, ⟨frame, rfl⟩ | ⟨frame, rfl⟩⟩ := step_cases ih hs
      · exact ih.setFrame frame
      · exact ih.add hk frame

end Session

/-- An evaluation in an environment is answered; it changes no frame but the one of this environment
and makes no environment. A call leaves the scope that its arguments leave, so that nothing of what
its body binds is seen after it. -/
theorem evaluation_sets_own_frame :
    (∀ (store : Store) (k : Nat) (interpreter : Interpreter) (action : Action),
      Session.Reachable store → k < store.size → action.Evaluates →
        ∃ reply next, Session.step interpreter store k action = some (reply, next) ∧
          next.size = store.size ∧ (∀ j, next.parent? j = store.parent? j) ∧
          ∀ j, j ≠ k → next.frame? j = store.frame? j) ∧
    ∀ (scope : Scope) (name : String) (params : List String) (body operands : List Value)
      (limit limit' : Nat), scope.value? name = some (.lambda params body) →
        (Form.call (eval limit) (eval limit') name operands scope).scope =
          (Form.arguments (eval limit') (operands.take params.length) scope).scope := by
  constructor
  · intro store k interpreter action h hk ha
    obtain ⟨reply, frame, hs⟩ := Session.exists_step_eq h.ordered hk interpreter ha
    refine ⟨reply, store.setFrame k frame, hs, store.size_setFrame frame, ?_, ?_⟩
    · exact fun j => store.parent?_setFrame frame j
    · exact fun j hj => Store.frame?_setFrame_of_ne frame hj
  · intro scope name params body operands limit limit' h
    exact Form.scope_call h limit limit'

/-- A function of the first environment that makes a definition is called in the second one. -/
theorem evaluation_sets_own_frame_call :
    let f := Value.lambda ["x"] [.list [.symbol "define", .symbol "y", .symbol "x"]]
    let store := (Store.fresh.set 0 "f" f).add 0 .empty
    let scope : Scope := ⟨.empty, [⟨[("f", f)]⟩]⟩
    Session.Reachable store ∧
      (∃ reply next, Session.step .standard store 1 (.evaluate (.list [.symbol "f", .number 3])) =
          some (reply, next) ∧ next.size = 2 ∧ next.frame? 0 = store.frame? 0) ∧
      (Form.call (eval 10) (eval 9) "f" [.number 3] scope).scope =
        (Form.arguments (eval 9) [.number 3] scope).scope := by
  intro f store scope
  have hset : Session.Reachable (Store.fresh.set 0 "f" f) :=
    .step .standard .fresh (show Session.step _ _ 0 (.set (.text "f") f) = some (.done, _) from rfl)
  have h : Session.Reachable store :=
    .step .standard hset (show Session.step _ _ 0 .extend = some (.made 1 .empty, _) from rfl)
  obtain ⟨reply, next, hs, hsize, _, hframe⟩ := evaluation_sets_own_frame.1 store 1 .standard
    (.evaluate (.list [.symbol "f", .number 3])) h (by decide) (.evaluate _)
  refine ⟨h, ⟨reply, next, hs, hsize, hframe 0 (by decide)⟩, ?_⟩
  exact evaluation_sets_own_frame.2 scope "f" _ _ [.number 3] 10 9 rfl

end DynLisp

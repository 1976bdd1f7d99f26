import DynLisp.Proofs.Evaluation.Bindings
import DynLisp.Proofs.Evaluation.Names
import DynLisp.Proofs.Running.History

/-! # Parameters

Parameters are bound to arguments in an environment made for them. A parameter may occur more than
once: it is bound where it first occurs, to the argument where it last occurs. All other names are
seen through to the environment around. -/

namespace DynLisp

namespace Store

variable {store : Store} {j k : Nat}

/-! ### An environment inside another -/

/-- On the way outward from an environment any count beyond its number is the same. -/
theorem pathOf_eq_path (h : store.Ordered) {count : Nat} (hc : k < count) :
    store.pathOf count k = store.path k := by
  induction k using Nat.strongRecOn generalizing count with
  | ind k ih =>
      obtain ⟨count, rfl⟩ := Nat.exists_eq_add_one_of_ne_zero (Nat.ne_zero_of_lt hc)
      rw [path, pathOf, pathOf]
      cases hnode : store.nodes[k]? with
      | none => rfl
      | some node =>
          obtain ⟨frame, parent⟩ := node
          cases parent with
          | none => rfl
          | some parent =>
              have hp : parent < k := h k parent (by simp [parent?, hnode])
              simp only [ih parent hp (show parent < count by omega), ih parent hp hp]

theorem nodes_add_of_lt (frame : Frame) (hj : j < store.size) :
    (store.add k frame).nodes[j]? = store.nodes[j]? :=
  List.getElem?_append_left hj

/-- A new environment is on no other's way outward. -/
theorem pathOf_add (h : store.Ordered) (frame : Frame) (hj : j < store.size) (count : Nat) :
    (store.add k frame).pathOf count j = store.pathOf count j := by
  induction count generalizing j with
  | zero => rfl
  | succ count ih =>
      rw [pathOf, pathOf, nodes_add_of_lt frame hj]
      cases hnode : store.nodes[j]? with
      | none => rfl
      | some node =>
          obtain ⟨_, parent⟩ := node
          cases parent with
          | none => rfl
          | some parent =>
              have hp : parent < j := h j parent (by simp [parent?, hnode])
              simp only [ih (Nat.lt_trans hp hj)]

theorem parent?_add (frame : Frame) : (store.add k frame).parent? store.size = some k := by
  simp [parent?, add, size]

/-- The scope of a new environment is its frame inside the scope that it was made in. -/
theorem scope?_add (h : store.Ordered) (hk : k < store.size) {scope : Scope}
    (hs : store.scope? k = some scope) (frame : Frame) :
    (store.add k frame).scope? store.size = some (scope.enter frame) := by
  have hnode : (store.add k frame).nodes[store.size]? = some ⟨frame, some k⟩ := by
    simp [add, size]
  have hpath : (store.add k frame).path store.size = store.size :: store.path k := by
    rw [path, pathOf, hnode]
    simp only [pathOf_add h frame hk, pathOf_eq_path h hk]
  have hframes : (store.path k).filterMap (store.add k frame).frame? = scope.frames := by
    have hsame : (store.path k).filterMap (store.add k frame).frame? =
        (store.path k).filterMap store.frame? := by
      refine List.filterMap_congr fun j hj => ?_
      have hlt : j < store.size := Nat.lt_of_le_of_lt (le_of_mem_pathOf h hj) hk
      rw [frame?_add, if_neg (Nat.ne_of_lt hlt)]
    rw [hsame]
    unfold scope? at hs
    split at hs
    · simp at hs
    · rename_i inner outer hpath
      rw [hpath, ← Option.some.inj hs]
      rfl
  have hlast : (store.add k frame).frame? store.size = some frame := by
    rw [frame?_add, if_pos rfl]
  simp only [scope?, hpath, List.filterMap_cons, hlast, hframes]
  rfl

end Store

namespace Session

variable {store : Store} {k : Nat} {params : List String} {args : List Value}

/-- What is made when parameters are bound in environment `k`: one environment inside, with the given
frame. -/
structure BindsIn (interpreter : Interpreter) (store : Store) (k : Nat) (params : List String)
    (args : List Value) (frame : Frame) (next : Store) : Prop where
  size_eq : next.size = store.size + 1
  parent?_eq : next.parent? store.size = some k
  frame?_eq : next.frame? store.size = some frame
  frame?_of_lt : ∀ j < store.size, next.frame? j = store.frame? j
  /-- The parameters are in the order in which they first occur. -/
  names_eq : frame.names = params.eraseDups
  find?_eq : ∀ (i : Nat) (name : String), params[i]? = some name →
    (∀ j : Nat, i < j → params[j]? ≠ some name) →
      ∃ v, args[i]? = some v ∧ frame.find? name = some v
  get_eq : ∀ key : Key, key.name ∉ params →
    (step interpreter next store.size (.get key)).map Prod.fst =
      (step interpreter store k (.get key)).map Prod.fst

theorem step_bind_of_lt (interpreter : Interpreter) (hk : k < store.size)
    (h : args.length < params.length) :
    step interpreter store k (.bind params args) =
      some (.failure (.faulty (.missingArguments params.length args.length)), store) := by
  obtain ⟨frame, hframe⟩ := Store.exists_frame? hk
  simp [step, hframe, Frame.ofCall, h]

theorem step_bind_of_le (interpreter : Interpreter) (hk : k < store.size)
    (h : params.length ≤ args.length) :
    step interpreter store k (.bind params args) =
      some (.made store.size (.ofParameters params args),
        store.add k (.ofParameters params args)) := by
  obtain ⟨frame, hframe⟩ := Store.exists_frame? hk
  simp [step, hframe, Frame.ofCall, Nat.not_lt.mpr h]

/-- A name that the new frame does not bind means in it what it means around it. -/
theorem step_get_add (interpreter : Interpreter) (h : store.Ordered) (hk : k < store.size)
    {frame : Frame} {key : Key} (hkey : frame.find? key.name = none) :
    (step interpreter (store.add k frame) store.size (.get key)).map Prod.fst =
      (step interpreter store k (.get key)).map Prod.fst := by
  obtain ⟨inner, hinner⟩ := Store.exists_frame? hk
  obtain ⟨scope, hscope, _⟩ := Store.exists_scope? h hk
  simp only [step, Store.frame?_add, if_true, hinner, Option.map_some, Store.value?,
    Store.scope?_add h hk hscope, hscope, Option.bind_some, Scope.value?_enter_of_none scope hkey]

theorem bindsIn_add (interpreter : Interpreter) (h : store.Ordered) (hk : k < store.size)
    (hl : params.length ≤ args.length) :
    BindsIn interpreter store k params args (.ofParameters params args)
      (store.add k (.ofParameters params args)) where
  size_eq := by simp [Store.add, Store.size]
  parent?_eq := Store.parent?_add _
  frame?_eq := by rw [Store.frame?_add, if_pos rfl]
  frame?_of_lt j hj := by rw [Store.frame?_add, if_neg (Nat.ne_of_lt hj)]
  names_eq := Frame.names_ofParameters hl
  find?_eq i name hi hlast := by
    have hlt : i < params.length := (List.getElem?_eq_some_iff.mp hi).1
    refine ⟨args[i], List.getElem?_eq_getElem (by omega), ?_⟩
    rw [Frame.find?_ofParameters hl hi hlast]
    exact List.getElem?_eq_getElem (by omega)
  get_eq key hkey := by
    refine step_get_add interpreter h hk ?_
    rwa [Frame.find?_eq_none_iff, Frame.names_ofParameters hl, List.mem_eraseDups]

/-- Arguments beyond the last parameter are not looked at. -/
theorem step_bind_take (interpreter : Interpreter) (hk : k < store.size) (params : List String)
    (args : List Value) :
    step interpreter store k (.bind params (args.take params.length)) =
      step interpreter store k (.bind params args) := by
  by_cases hl : params.length ≤ args.length
  · have htake : params.length ≤ (args.take params.length).length := by
      rw [List.length_take]
      omega
    rw [step_bind_of_le interpreter hk htake, step_bind_of_le interpreter hk hl,
      Frame.ofParameters_take]
  · rw [List.take_of_length_le (by omega)]

/-- Binding parameters fails exactly if there are fewer arguments, and then nothing has changed.
Otherwise an environment is made that binds each parameter, in the order of first occurrences, to
the argument at its last occurrence, and that is seen through for all other names. Further arguments
make no difference. -/
theorem step_bind_parameters (interpreter : Interpreter) (h : store.Ordered) (hk : k < store.size)
    (params : List String) (args : List Value) :
    let outcome := step interpreter store k (.bind params args)
    ((∃ failure, failure.label = "OwoInvalidArgumentCount" ∧
        outcome = some (.failure failure, store)) ↔ args.length < params.length) ∧
      (params.length ≤ args.length → ∃ frame next,
        outcome = some (.made store.size frame, next) ∧
          BindsIn interpreter store k params args frame next) ∧
      outcome = step interpreter store k (.bind params (args.take params.length)) := by
  refine ⟨⟨?_, fun hl => ?_⟩, fun hl => ?_, (step_bind_take interpreter hk params args).symm⟩
  · rintro ⟨failure, _, houtcome⟩
    by_contra hl
    rw [step_bind_of_le interpreter hk (Nat.not_lt.mp hl)] at houtcome
    simp at houtcome
  · exact ⟨_, rfl, step_bind_of_lt interpreter hk hl⟩
  · exact ⟨_, _, step_bind_of_le interpreter hk hl, bindsIn_add interpreter h hk hl⟩

/-- Of a parameter that occurs twice the place is that of the first occurrence and the argument that
of the last. -/
theorem step_bind_parameters_twice :
    let store := Store.fresh.set 0 "z" (.number 7)
    let params := ["x", "y", "x"]
    let args := [Value.number 1, .number 2, .number 3, .number 4]
    store.Ordered ∧ params.length ≤ args.length ∧ ∃ frame next,
      step .standard store 0 (.bind params args) = some (.made 1 frame, next) ∧
        frame.names = ["x", "y"] ∧ frame.find? "x" = some (.number 3) ∧
        (step .standard next 1 (.get (.symbol "z"))).map Prod.fst =
          some (.value (.number 7)) := by
  intro store params args
  have h : store.Ordered :=
    Reachable.ordered (.step .standard .fresh (show step _ _ 0 (.set (.text "z") (.number 7)) =
      some (.done, store) from rfl))
  obtain ⟨_, hmade, _⟩ := step_bind_parameters .standard h (show 0 < store.size by decide) params
    args
  obtain ⟨frame, next, hstep, hbinds⟩ := hmade (by decide)
  refine ⟨h, by decide, frame, next, hstep, hbinds.names_eq, ?_, ?_⟩
  · obtain ⟨v, hv, hfind⟩ := hbinds.find?_eq 2 "x" rfl (by
      intro j hj
      obtain ⟨i, rfl⟩ := Nat.exists_eq_add_of_lt hj
      simp [params])
    cases hv
    exact hfind
  · exact hbinds.get_eq (.symbol "z") (by decide)

end Session

end DynLisp

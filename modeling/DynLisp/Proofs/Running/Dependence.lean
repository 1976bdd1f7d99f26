import DynLisp.Interpreter
import DynLisp.Proofs.Evaluation.Agreement

/-! # What the outcome of a program depends on

The outcome of a program is decided by the values of the names that matter to it. It is the same if
all frames of the scope are collapsed into one, and if a name that does not matter is bound in any
frame. -/

namespace DynLisp

/-- One frame with what `inner` binds and, for the other names, what `outer` binds. -/
def Frame.shadow (inner outer : Frame) : Frame :=
  inner.entries.foldr (fun entry frame => frame.set entry.1 entry.2) outer

theorem Frame.find?_shadow (inner outer : Frame) (key : String) :
    (inner.shadow outer).find? key = (inner.find? key).or (outer.find? key) := by
  obtain ⟨entries⟩ := inner
  induction entries with
  | nil => rfl
  | cons entry entries ih =>
      obtain ⟨name, v⟩ := entry
      have hshadow : shadow ⟨(name, v) :: entries⟩ outer = (shadow ⟨entries⟩ outer).set name v :=
        rfl
      rw [hshadow, find?_set, ih]
      by_cases h : key = name
      · simp [find?, findEntry?, h]
      · simp [find?, findEntry?, h, Ne.symm h]

namespace Scope

/-- The scope of one frame in which every name means the same. -/
def collapse (scope : Scope) : Scope := .ofFrame (scope.frames.foldr Frame.shadow .empty)

theorem find?_foldr_shadow (frames : List Frame) (key : String) :
    (frames.foldr Frame.shadow .empty).find? key = frames.findSome? (·.find? key) := by
  induction frames with
  | nil => rfl
  | cons frame frames ih =>
      rw [List.foldr_cons, Frame.find?_shadow, ih, List.findSome?_cons]
      cases frame.find? key <;> rfl

theorem find?_collapse (scope : Scope) (key : String) :
    scope.collapse.find? key = scope.find? key := by
  rw [find?_eq_or, collapse, ofFrame, find?_foldr_shadow]
  simp [find?]

/-- Binds a name in one of the frames of a scope, counted from the inside. -/
def defineAt (scope : Scope) : (place : Nat) → (name : String) → Value → Scope
  | 0, name, v => scope.define name v
  | place + 1, name, v => { scope with outer := scope.outer.modify place (·.set name v) }

theorem findSome?_modify_set {name key : String} (h : key ≠ name) (v : Value)
    (frames : List Frame) (place : Nat) :
    (frames.modify place (·.set name v)).findSome? (·.find? key) =
      frames.findSome? (·.find? key) := by
  induction frames generalizing place with
  | nil => simp
  | cons frame frames ih =>
      cases place with
      | zero => simp [List.findSome?_cons, h]
      | succ place => simp [List.findSome?_cons, ih]

theorem find?_defineAt_of_ne (scope : Scope) {name key : String} (h : key ≠ name) (place : Nat)
    (v : Value) : (scope.defineAt place name v).find? key = scope.find? key := by
  cases place with
  | zero => rw [defineAt, find?_define, if_neg h]
  | succ place => rw [find?_eq_or, find?_eq_or, defineAt, findSome?_modify_set h]

end Scope

variable {names : Set String} {s t : Scope}

namespace Interpreter

/-- A program has the same outcome in scopes that agree on the names that matter to it. -/
theorem run_agree (interpreter : Interpreter) {source : String}
    (hp : ∀ program, Program.parse source = .ok program →
      (Value.list program).MentionsOnly names)
    (ha : s.AgreeOn names t) (hc : s.ClosedOn names) :
    (interpreter.run source s).result = (interpreter.run source t).result ∧
      (interpreter.run source s).records = (interpreter.run source t).records := by
  unfold run
  cases hparse : Program.parse source with
  | error fault => exact ⟨rfl, rfl⟩
  | ok program =>
      have h := eval_uniform (hp program hparse) interpreter.limit s t ha hc
      simp only [runProgram]
      split
      · exact ⟨rfl, rfl⟩
      · simp only [h.result_eq, h.calls_eq, and_self]

end Interpreter

/-- An evaluation depends on its scope only through the values of the names that its expression
mentions and that functions bound to such names mention. So the outcome of a program does not change
when all frames are collapsed into one or when another name is bound in one of the frames. -/
theorem outcome_eq_of_agree :
    (∀ (names : Set String) (e : Value) (s t : Scope) (limit : Nat),
      e.MentionsOnly names → s.AgreeOn names t → s.ClosedOn names →
        (eval limit e s).result = (eval limit e t).result ∧
        (eval limit e s).calls = (eval limit e t).calls ∧
        (eval limit e s).scope.AgreeOn names (eval limit e t).scope) ∧
    (∀ (interpreter : Interpreter) (source : String) (scope : Scope),
      (interpreter.run source scope).result = (interpreter.run source scope.collapse).result ∧
      (interpreter.run source scope).records = (interpreter.run source scope.collapse).records) ∧
    ∀ (interpreter : Interpreter) (source : String) (program : List Value) (names : Set String)
      (scope : Scope) (place : Nat) (name : String) (v : Value),
      Program.parse source = .ok program → (Value.list program).MentionsOnly names →
      scope.ClosedOn names → name ∉ names →
        (interpreter.run source scope).result =
          (interpreter.run source (scope.defineAt place name v)).result ∧
        (interpreter.run source scope).records =
          (interpreter.run source (scope.defineAt place name v)).records := by
  refine ⟨?_, ?_, ?_⟩
  · intro names e s t limit he ha hc
    have h := eval_uniform he limit s t ha hc
    exact ⟨h.result_eq, h.calls_eq, h.agree⟩
  · intro interpreter source scope
    -- if all names matter, the conditions on what is mentioned are empty
    have ha : scope.AgreeOn Set.univ scope.collapse :=
      Scope.agreeOn_of_find?_eq fun x _ => (scope.find?_collapse x).symm
    exact interpreter.run_agree (fun _ _ _ _ => trivial) ha fun _ _ _ _ _ _ _ _ _ => trivial
  · intro interpreter source program names scope place name v hparse hp hc hn
    refine interpreter.run_agree (fun _ h => ?_) ?_ hc
    · rw [hparse] at h
      exact Except.ok.inj h ▸ hp
    · refine Scope.agreeOn_of_find?_eq fun x hx => ?_
      have hne : x ≠ name := fun he => hn (he ▸ hx)
      rw [scope.find?_defineAt_of_ne hne]

/-- A function that reads a name of its caller is called in a scope of two frames and in one frame
that binds a reserved name as well. -/
theorem outcome_eq_of_agree_call :
    let f := Value.lambda ["y"] [.symbol "+", .symbol "x", .symbol "y"]
    let s : Scope := ⟨⟨[("x", .number 2)]⟩, [⟨[("f", f)]⟩]⟩
    let t : Scope := .ofFrame ⟨[("if", .void), ("f", f), ("x", .number 2)]⟩
    let e := Value.list [.symbol "f", .number 40]
    (e.MentionsOnly {"f", "x", "y"} ∧ s.AgreeOn {"f", "x", "y"} t ∧
        s.ClosedOn {"f", "x", "y"}) ∧
      (eval 10 e s).result = (eval 10 e t).result := by
  intro f s t e
  have hnumber : (Value.number 40).MentionsOnly {"f", "x", "y"} := by
    intro name h
    cases h
  have he : e.MentionsOnly {"f", "x", "y"} := by
    simp [e, Value.mentionsOnly_list_iff, Value.mentionsOnly_symbol_iff, hnumber]
  have hf : f.RunsWithin {"f", "x", "y"} := by
    intro params body h
    obtain ⟨_, rfl⟩ := Value.lambda.inj h
    simp [Value.mentionsOnly_list_iff, Value.mentionsOnly_symbol_iff, reservedNames, operatorNames]
  have ha : s.AgreeOn {"f", "x", "y"} t := by
    rintro x (rfl | rfl | rfl) <;> rfl
  have hs : s.Binds (Value.RunsWithin {"f", "x", "y"}) := by
    have htwo : (Value.number 2).RunsWithin {"f", "x", "y"} := by
      intro params body h
      cases h
    simp [s, Scope.Binds, Scope.frames, Frame.Binds, htwo, hf]
  have hc : s.ClosedOn {"f", "x", "y"} := fun _ _ _ hv => hs.of_value? hv
  exact ⟨⟨he, ha, hc⟩, (outcome_eq_of_agree.1 _ e s t 10 he ha hc).1⟩

end DynLisp

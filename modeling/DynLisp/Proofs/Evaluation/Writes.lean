import DynLisp.Proofs.Evaluation.Locality
import Mathlib.Data.Set.Basic

/-! # What an evaluation can write

The names that an evaluation binds in its scope are those that its expression defines where it can
be seen: the definitions in the body of a function go to the frame of a call and are dropped with
it. An expression without definitions leaves its scope as it is. -/

namespace DynLisp

/-- A definition of a name occurs in an expression, outside of the functions in it. -/
inductive Value.Defines (name : String) : Value → Prop where
  | here (e) : Defines name (.list [.symbol "define", .symbol name, e])
  | item {v items} (hv : v ∈ items) (hl : items.head? ≠ some (.symbol "lambda"))
      (h : Defines name v) : Defines name (.list items)

theorem Value.defines_list_iff {name : String} {items : List Value} :
    (Value.list items).Defines name ↔
      (∃ e, items = [.symbol "define", .symbol name, e]) ∨
        items.head? ≠ some (.symbol "lambda") ∧ ∃ v ∈ items, v.Defines name := by
  constructor
  · generalize hl : Value.list items = list
    intro h
    cases h with
    | here e => exact .inl ⟨e, Value.list.inj hl⟩
    | item hv hhead h =>
        cases hl
        exact .inr ⟨hhead, _, hv, h⟩
  · rintro (⟨e, rfl⟩ | ⟨hhead, v, hv, h⟩)
    · exact .here e
    · exact .item hv hhead h

/-- A list that is headed by another symbol than `define` has the definitions of its elements at
most. -/
theorem Value.not_defines_list {name head : String} {items : List Value} (hd : head ≠ "define")
    (h : ∀ v ∈ items, ¬ v.Defines name) : ¬ (Value.list (.symbol head :: items)).Defines name := by
  rw [defines_list_iff]
  rintro (⟨e, hitems⟩ | ⟨_, v, hv, hdef⟩)
  · exact hd (Value.symbol.inj (List.cons.inj hitems).1)
  · rcases List.mem_cons.mp hv with rfl | hv
    · cases hdef
    · exact h v hv hdef

/-- A scope after definitions of some of the given names in its innermost frame. -/
inductive Scope.Writes (names : Set String) (scope : Scope) : Scope → Prop where
  | refl : Writes names scope scope
  | define {next name} (v) (hn : name ∈ names) (h : Writes names scope next) :
      Writes names scope (next.define name v)

theorem Scope.Writes.trans {names : Set String} {scope next last : Scope}
    (h : scope.Writes names next) (h' : next.Writes names last) : scope.Writes names last := by
  induction h' with
  | refl => exact h
  | define v hn _ ih => exact .define v hn ih

theorem Scope.Writes.eq_of_empty {scope next : Scope} (h : scope.Writes ∅ next) :
    next = scope := by
  cases h with
  | refl => rfl
  | define v hn _ => exact absurd hn (Set.notMem_empty _)

/-- A name that is not among those that are defined is bound as before in the innermost frame. -/
theorem Scope.Writes.find?_frame {names : Set String} {scope next : Scope} {name : String}
    (h : scope.Writes names next) (hn : name ∉ names) :
    next.frame.find? name = scope.frame.find? name := by
  induction h with
  | refl => rfl
  | @define next key v hkey _ ih =>
      have hne : name ≠ key := by
        rintro rfl
        exact hn hkey
      rw [Scope.define, Frame.find?_set, if_neg hne, ih]

/-- The definitions of an expression are among some names. -/
def Value.DefinesOnly (names : Set String) (e : Value) : Prop :=
  ∀ name, e.Defines name → name ∈ names

theorem Value.DefinesOnly.of_mem {names : Set String} {v : Value} {items : List Value}
    (h : (Value.list items).DefinesOnly names) (hl : items.head? ≠ some (.symbol "lambda"))
    (hv : v ∈ items) : v.DefinesOnly names :=
  fun name hname => h name (.item hv hl hname)

/-- Evaluation writes the names that its expression defines, whatever the functions define that it
calls. -/
def Logic.writes (names : Set String) : Logic Eval.OnlyDefines where
  code e := e.DefinesOnly names
  value _ := True
  holds Q m := m.Ensures (fun _ => True) (Scope.Writes names) Q
  pure := Eval.ensures_pure fun _ _ => .refl
  fail := Eval.ensures_fail fun _ _ => .refl
  bind := .bind (fun _ _ => trivial) .trans
  lookup _ _ _ := ⟨.refl, fun _ _ _ _ => trivial⟩
  define h _ _ _ := ⟨.define _ (h _ (.here _)) .refl, fun _ _ => trivial⟩
  record _ _ _ := ⟨.refl, fun _ _ => trivial⟩
  -- the body of a function may define anything
  invoke _ _ hk _ scope _ := by
    refine ⟨?_, fun _ _ => trivial⟩
    rw [hk.scope_within]
    exact .refl
  head h hv := h.of_mem (by simpa using hv "lambda" (by decide)) List.mem_cons_self
  tail h hv w hw := h.of_mem (by simpa using hv) (List.mem_cons_of_mem _ hw)
  constant _ _ := trivial
  number _ := trivial
  boolean _ := trivial
  void := trivial
  list _ _ := trivial
  function _ := trivial

theorem eval_writes {names : Set String} {e : Value} (h : e.DefinesOnly names) (limit : Nat)
    (scope : Scope) : scope.Writes names (eval limit e scope).scope :=
  ((Logic.writes names).holds_eval eval_onlyDefines h limit scope trivial).1

/-- An expression without definitions leaves its scope as it is, also when it fails or runs out of
frames. -/
theorem scope_eval_of_not_defines {e : Value} (h : ∀ name, ¬ e.Defines name) (limit : Nat)
    (scope : Scope) : (eval limit e scope).scope = scope :=
  (eval_writes (fun name hname => absurd hname (h name)) limit scope).eq_of_empty

/-- The names that an evaluation may bind or rebind are those that its expression defines outside of
functions; every other name stays as it is in the frame of the evaluation, whatever is called and
however the evaluation ends. Without definitions the scope stays, so that evaluating again gives the
same. -/
theorem eval_writes_defined_names (limit : Nat) (e : Value) (scope : Scope) :
    (∀ name, ¬ e.Defines name →
      (eval limit e scope).scope.frame.find? name = scope.frame.find? name) ∧
    ((∀ name, ¬ e.Defines name) →
      (eval limit e scope).scope = scope ∧
        eval limit e (eval limit e scope).scope = eval limit e scope) := by
  constructor
  · intro name hname
    have hwrites : scope.Writes { key | e.Defines key } (eval limit e scope).scope :=
      eval_writes (fun key hkey => hkey) limit scope
    exact hwrites.find?_frame hname
  · intro hnone
    have hscope := scope_eval_of_not_defines hnone limit scope
    exact ⟨hscope, by rw [hscope]⟩

/-- A call to a function that defines `y`, by itself and as the value of a definition of `a`. -/
theorem eval_writes_defined_names_call :
    let f := Value.lambda ["x"] [.list [.symbol "define", .symbol "y", .symbol "x"]]
    let scope := Scope.ofFrame ⟨[("f", f), ("y", .number 1)]⟩
    let call := Value.list [.symbol "f", .number 3]
    let e := Value.list [.symbol "define", .symbol "a", call]
    (¬ e.Defines "y" ∧ (eval 20 e scope).scope.frame.find? "y" = some (.number 1)) ∧
      (∀ name, ¬ call.Defines name) ∧ (eval 20 call scope).scope = scope := by
  intro f scope call e
  have hcall : ∀ name, ¬ call.Defines name := by
    intro name
    refine Value.not_defines_list (by decide) ?_
    intro v hv
    obtain rfl := List.mem_singleton.mp hv
    nofun
  have he : ¬ e.Defines "y" := by
    rw [Value.defines_list_iff]
    rintro (⟨value, hitems⟩ | ⟨_, v, hv, hd⟩)
    · simp at hitems
    · simp only [List.mem_cons, List.not_mem_nil, or_false] at hv
      rcases hv with rfl | rfl | rfl
      · cases hd
      · cases hd
      · exact hcall "y" hd
  refine ⟨⟨he, ?_⟩, hcall, ((eval_writes_defined_names 20 call scope).2 hcall).1⟩
  rw [(eval_writes_defined_names 20 e scope).1 "y" he]
  rfl

end DynLisp

import DynLisp.Interpreter
import DynLisp.Proofs.Evaluation.Bindings
import DynLisp.Proofs.Evaluation.Logic
import DynLisp.Proofs.Reading.RoundTrip

/-! # The values that programs have

What a program computes and what it binds names to is a number in range, a truth value, the absence
of a value, a function whose body can be written, or a list of such values without absent ones. This
is kept by every program, in all frames and also when the program fails. -/

namespace DynLisp

/-- The values that programs compute. -/
inductive InDomain : Value → Prop where
  | number {n} (h : Number.InRange n) : InDomain (.number n)
  | boolean (b) : InDomain (.boolean b)
  | void : InDomain .void
  | list {items} (h : ∀ v ∈ items, InDomain v) (hv : .void ∉ items) : InDomain (.list items)
  | lambda {params body} (hp : ∀ name ∈ params, IsName name) (hb : Readable (.list body)) :
      InDomain (.lambda params body)

/-- A value is another one or lies in it, at any depth. -/
inductive Value.IsPart (v : Value) : Value → Prop where
  | self : IsPart v v
  | item {w items} (hw : w ∈ items) (h : IsPart v w) : IsPart v (.list items)
  | body {w params body} (hw : w ∈ body) (h : IsPart v w) : IsPart v (.lambda params body)

theorem readable_list_iff {items : List Value} :
    Readable (.list items) ↔ ∀ v ∈ items, Readable v := by
  constructor
  · intro h
    cases h with
    | list h => exact h
  · exact .list

theorem Readable.of_isPart {v w : Value} (hw : Readable w) (h : v.IsPart w) : Readable v := by
  induction h with
  | self => exact hw
  | item hmem _ ih => exact ih (readable_list_iff.mp hw _ hmem)
  | body => cases hw

theorem Readable.isName {names : List String} (h : Readable (.list (names.map .symbol))) :
    ∀ name ∈ names, IsName name := by
  intro name hname
  cases readable_list_iff.mp h _ (List.mem_map_of_mem hname) with
  | symbol h => exact h

/-- What lies in a value of the domain belongs to it as well or is code of a function. -/
theorem InDomain.of_isPart {v w : Value} (hw : InDomain w) (h : v.IsPart w) :
    InDomain v ∨ Readable v := by
  induction h with
  | self => exact .inl hw
  | item hmem _ ih =>
      cases hw with
      | list hitems _ => exact ih (hitems _ hmem)
  | body hmem hpart _ =>
      cases hw with
      | lambda _ hb => exact .inr ((readable_list_iff.mp hb _ hmem).of_isPart hpart)

/-- What a value that programs compute is not, and what it does not contain at any depth. -/
structure Value.IsProper (v : Value) : Prop where
  ne_symbol : ∀ name, v ≠ .symbol name
  ne_null : v ≠ .null
  inRange : ∀ n, (Value.number n).IsPart v → Number.InRange n
  void_not_mem : ∀ items, (Value.list items).IsPart v → .void ∉ items
  readable_body : ∀ params body, (Value.lambda params body).IsPart v → Readable (.list body)

theorem InDomain.isProper {v : Value} (h : InDomain v) : v.IsProper where
  ne_symbol name he := by
    subst he
    cases h
  ne_null he := by
    subst he
    cases h
  inRange n hn := by
    rcases h.of_isPart hn with hn | hn <;> cases hn <;> assumption
  void_not_mem items hitems := by
    rcases h.of_isPart hitems with hd | hr
    · cases hd with
      | list _ hvoid => exact hvoid
    · intro hvoid
      cases readable_list_iff.mp hr _ hvoid
  readable_body params body hf := by
    rcases h.of_isPart hf with hd | hr
    · cases hd with
      | lambda _ hb => exact hb
    · cases hr

/-- Evaluation of what can be written keeps to the domain. -/
def Logic.domain : Logic fun _ => True where
  code := Readable
  value := InDomain
  holds Q m := m.Ensures (Scope.Binds InDomain) (fun _ next => next.Binds InDomain) Q
  pure := Eval.ensures_pure fun _ h => h
  fail := Eval.ensures_fail fun _ h => h
  bind := .bind (fun _ h => h) (fun _ h => h)
  lookup _ _ h := ⟨h, fun _ hfound _ hv => h.of_value? ((Except.ok.inj hfound).trans hv)⟩
  define _ hv _ h := ⟨h.define hv, fun _ _ => trivial⟩
  record _ _ h := ⟨h, fun _ _ => trivial⟩
  invoke hf ha _ hm _ h := by
    cases hf with
    | lambda _ hb =>
        obtain ⟨hinner, hresult⟩ := hm hb _ (h.enter (Frame.binds_ofParameters _ ha))
        exact ⟨hinner.leave, hresult⟩
  head h _ := readable_list_iff.mp h _ List.mem_cons_self
  tail h _ w hw := readable_list_iff.mp h w (List.mem_cons_of_mem _ hw)
  constant h hc := by
    cases h with
    | number h => exact .number h
    | symbol _ | list _ => cases hc
  number := .number
  boolean := .boolean
  void := .void
  list := .list
  function h := by
    have hparts := readable_list_iff.mp h
    exact .lambda (hparts _ (by simp)).isName (hparts _ (by simp))

namespace Interpreter

theorem runProgram_inDomain (interpreter : Interpreter) {program : List Value} {scope : Scope}
    (hp : Readable (.list program)) (h : scope.Binds InDomain) :
    (interpreter.runProgram program scope).scope.Binds InDomain ∧
      ∀ v, (interpreter.runProgram program scope).result = .ok v → InDomain v := by
  obtain ⟨hscope, hresult⟩ :=
    Logic.domain.holds_eval (fun _ _ => trivial) hp interpreter.limit scope h
  unfold runProgram
  split
  · exact ⟨h, fun _ => nofun⟩
  · refine ⟨hscope, fun v hv => hresult v ?_⟩
    cases hr : (eval interpreter.limit (.list program) scope).result with
    | error fault => simp [hr] at hv
    | ok w => simpa [hr] using hv

theorem run_inDomain (interpreter : Interpreter) (source : String) {scope : Scope}
    (h : scope.Binds InDomain) :
    (interpreter.run source scope).scope.Binds InDomain ∧
      ∀ v, (interpreter.run source scope).result = .ok v → InDomain v := by
  unfold run
  cases hp : Program.parse source with
  | error fault => exact ⟨h, fun _ => nofun⟩
  | ok program => exact interpreter.runProgram_inDomain (Program.readable_of_parse hp) h

/-- Programs run one after another keep to the domain if the frames they start in do. -/
theorem runAll_keeps_domain (interpreter : Interpreter) (sources : List String) {scope : Scope}
    (h : scope.Binds InDomain) :
    (interpreter.runAll sources scope).2.Binds InDomain ∧
      ∀ v, .ok v ∈ (interpreter.runAll sources scope).1 → InDomain v := by
  induction sources generalizing scope with
  | nil => exact ⟨h, fun _ => nofun⟩
  | cons source sources ih =>
      obtain ⟨hscope, hresult⟩ := interpreter.run_inDomain source h
      obtain ⟨hfinal, hresults⟩ := ih hscope
      refine ⟨hfinal, fun v hv => ?_⟩
      rcases List.mem_cons.mp hv with hv | hv
      · exact hresult v hv.symm
      · exact hresults v hv

/-- A value that one of some programs gives or that is bound after them, if they run one after
another and nothing is bound before. -/
def Yields (interpreter : Interpreter) (sources : List String) (v : Value) : Prop :=
  let outcome := interpreter.runAll sources (.ofFrame .empty)
  .ok v ∈ outcome.1 ∨ ∃ frame ∈ outcome.2.frames, ∃ name, (name, v) ∈ frame.entries

/-- All values that programs give and bind belong to the domain, whether the programs succeed or
not. -/
theorem inDomain_of_yields {interpreter : Interpreter} {sources : List String} {v : Value}
    (h : interpreter.Yields sources v) : InDomain v ∧ v.IsProper := by
  have hempty : (Scope.ofFrame .empty).Binds InDomain :=
    List.forall_mem_singleton.mpr Frame.binds_empty
  obtain ⟨hscope, hresults⟩ := interpreter.runAll_keeps_domain sources hempty
  have hv : InDomain v := by
    rcases h with h | ⟨frame, hframe, name, hentry⟩
    · exact hresults v h
    · exact hscope frame hframe _ hentry
  exact ⟨hv, hv.isProper⟩

/-- A sequence gives the sum in it and leaves out the definition. -/
theorem inDomain_of_yields_sequence :
    ∃ v, Yields ⟨16, false⟩ ["((+ 1 2) (define x 7))"] v ∧ v.display = "(3)" ∧ InDomain v := by
  have hrun : ((run ⟨16, false⟩ "((+ 1 2) (define x 7))" (.ofFrame .empty)).result.toOption.map
      Value.display) = some "(3)" := by
    decide +kernel
  obtain ⟨v, hv, hdisplay⟩ := Option.map_eq_some_iff.mp hrun
  have hyields : Yields ⟨16, false⟩ ["((+ 1 2) (define x 7))"] v := by
    refine .inl (List.mem_singleton.mpr ?_)
    cases hr : (run ⟨16, false⟩ "((+ 1 2) (define x 7))" (.ofFrame .empty)).result with
    | error failure => simp [hr, Except.toOption] at hv
    | ok w => simpa [hr, Except.toOption] using hv.symm
  exact ⟨v, hyields, hdisplay, (inDomain_of_yields hyields).1⟩

end Interpreter

end DynLisp

import DynLisp.Proofs.Evaluation.Bindings
import DynLisp.Proofs.Evaluation.Locality
import Mathlib.Data.Set.Insert

/-! # What an evaluation depends on

An evaluation looks up the names that its expression mentions and those that the functions it calls
mention, and it sees nothing else of its scope. Two scopes that agree on all these names lead to the
same result and the same calls, however their frames are divided, and they agree afterwards. -/

namespace DynLisp

namespace Value

/-- A name occurs in an expression otherwise than as a reserved name at the head of a list. A
function that stands in an expression is not looked into, since evaluation does not call it. -/
inductive Mentions (name : String) : Value → Prop where
  | symbol : Mentions name (.symbol name)
  | head {v vs} (h : Mentions name v) (hv : name ∈ reservedNames → v ≠ .symbol name) :
      Mentions name (.list (v :: vs))
  | tail {v w vs} (hw : w ∈ vs) (h : Mentions name w) : Mentions name (.list (v :: vs))

def MentionsOnly (names : Set String) (e : Value) : Prop := ∀ name, Mentions name e → name ∈ names

/-- The value, if it is a function, has a body that mentions certain names only. -/
def RunsWithin (names : Set String) (v : Value) : Prop :=
  ∀ params body, v = .lambda params body → MentionsOnly names (.list body)

variable {names : Set String}

theorem mentionsOnly_symbol_iff {name : String} :
    (symbol name).MentionsOnly names ↔ name ∈ names := by
  constructor
  · exact fun h => h name .symbol
  · rintro h _ ⟨⟩
    exact h

/-- The elements of a list matter, except for a reserved name at its head. -/
theorem mentionsOnly_list_iff {v : Value} {vs : List Value} :
    (list (v :: vs)).MentionsOnly names ↔
      (v.MentionsOnly names ∨ ∃ name ∈ reservedNames, v = .symbol name) ∧
        ∀ w ∈ vs, w.MentionsOnly names := by
  constructor
  · intro h
    refine ⟨?_, fun w hw name hn => h name (.tail hw hn)⟩
    by_cases hr : ∃ name ∈ reservedNames, v = .symbol name
    · exact .inr hr
    · exact .inl fun name hn => h name (.head hn fun hm he => hr ⟨name, hm, he⟩)
  · rintro ⟨hv, hvs⟩ name hn
    cases hn with
    | head hn hne =>
        rcases hv with hv | ⟨key, hkey, rfl⟩
        · exact hv name hn
        · cases hn
          exact absurd rfl (hne hkey)
    | tail hw hn => exact hvs _ hw name hn

end Value

variable {names : Set String} {s t : Scope}

namespace Scope

/-- Two scopes give the same values to certain names. -/
def AgreeOn (names : Set String) (s t : Scope) : Prop := ∀ x ∈ names, s.value? x = t.value? x

/-- The functions that certain names are bound to mention these names only. -/
def ClosedOn (names : Set String) (scope : Scope) : Prop :=
  ∀ x ∈ names, ∀ v, scope.value? x = some v → v.RunsWithin names

theorem agreeOn_of_find?_eq (h : ∀ x ∈ names, s.find? x = t.find? x) : s.AgreeOn names t :=
  fun x hx => value?_congr (h x hx)

theorem AgreeOn.define (h : s.AgreeOn names t) (name : String) (v : Value) :
    (s.define name v).AgreeOn names (t.define name v) := by
  intro x hx
  by_cases hn : x = name
  · apply value?_congr
    rw [find?_define, find?_define, if_pos hn, if_pos hn]
  · rw [value?_define_of_ne s v hn, value?_define_of_ne t v hn]
    exact h x hx

theorem AgreeOn.enter (h : s.AgreeOn names t) (frame : Frame) :
    (s.enter frame).AgreeOn names (t.enter frame) := by
  intro x hx
  cases hf : frame.find? x with
  | some v =>
      apply value?_congr
      rw [find?_enter, find?_enter, hf, Option.some_or, Option.some_or]
  | none =>
      rw [value?_enter_of_none s hf, value?_enter_of_none t hf]
      exact h x hx

theorem ClosedOn.define (h : s.ClosedOn names) (name : String) {v : Value}
    (hv : v.RunsWithin names) : (s.define name v).ClosedOn names := by
  intro x hx w hw
  obtain ⟨hfind, hne⟩ := value?_eq_some_iff.mp hw
  rw [find?_define] at hfind
  split at hfind
  · exact Option.some.inj hfind ▸ hv
  · exact h x hx w (value?_eq_some_iff.mpr ⟨hfind, hne⟩)

theorem ClosedOn.enter (h : s.ClosedOn names) {frame : Frame}
    (hf : frame.Binds (Value.RunsWithin names)) : (s.enter frame).ClosedOn names := by
  intro x hx w hw
  obtain ⟨hfind, hne⟩ := value?_eq_some_iff.mp hw
  rw [find?_enter, Option.or_eq_some_iff] at hfind
  rcases hfind with hfind | ⟨_, hfind⟩
  · exact hf.of_find? hfind
  · exact h x hx w (value?_eq_some_iff.mpr ⟨hfind, hne⟩)

end Scope

/-- Two runs have the same result and calls and end in scopes that agree. -/
structure Run.Matches {α : Type} (names : Set String) (Q : α → Prop) (r r' : Run α) : Prop where
  result_eq : r.result = r'.result
  calls_eq : r.calls = r'.calls
  agree : r.scope.AgreeOn names r'.scope
  closed : r.scope.ClosedOn names
  result : ∀ a, r.result = .ok a → Q a

/-- A computation runs alike in scopes that agree. -/
def Eval.Uniform {α : Type} (names : Set String) (Q : α → Prop) (m : Eval α) : Prop :=
  ∀ s t : Scope, s.AgreeOn names t → s.ClosedOn names → (m s).Matches names Q (m t)

theorem Eval.Uniform.bind {α β : Type} {P : α → Prop} {Q : β → Prop} {m : Eval α}
    {f : α → Eval β} (hm : m.Uniform names P) (hf : ∀ a, P a → (f a).Uniform names Q) :
    (m >>= f).Uniform names Q := by
  intro s t ha hc
  have h := hm s t ha hc
  cases hs : (m s).result with
  | error fault =>
      have ht : (m t).result = .error fault := by rw [← h.result_eq, hs]
      rw [bind_of_error hs, bind_of_error ht]
      exact ⟨rfl, h.calls_eq, h.agree, h.closed, fun _ => nofun⟩
  | ok a =>
      have ht : (m t).result = .ok a := by rw [← h.result_eq, hs]
      have hn := hf a (h.result a hs) _ _ h.agree h.closed
      rw [bind_of_ok hs, bind_of_ok ht]
      refine ⟨hn.result_eq, ?_, hn.agree, hn.closed, hn.result⟩
      simp only [h.calls_eq, hn.calls_eq]

/-- The calls that a body makes are the same, and the scopes are left as they were. -/
theorem Eval.Uniform.within {α : Type} {Q : α → Prop} {m : Eval α} (hm : m.Uniform names Q)
    (hd : m.OnlyDefines) {frame : Frame} (hf : frame.Binds (Value.RunsWithin names)) :
    (within frame m).Uniform names Q := by
  intro s t ha hc
  have h := hm (s.enter frame) (t.enter frame) (ha.enter frame) (hc.enter hf)
  refine ⟨h.result_eq, h.calls_eq, ?_, ?_, h.result⟩
  · rw [hd.scope_within, hd.scope_within]
    exact ha
  · rw [hd.scope_within]
    exact hc

/-- Evaluation of an expression runs alike in scopes that agree on what the expression mentions. -/
def Logic.agreement (names : Set String) : Logic Eval.OnlyDefines where
  code := Value.MentionsOnly names
  value := Value.RunsWithin names
  holds Q m := m.Uniform names Q
  pure h _ _ ha hc := ⟨rfl, rfl, ha, hc, fun _ hb => Except.ok.inj hb ▸ h⟩
  fail _ _ _ ha hc := ⟨rfl, rfl, ha, hc, fun _ => nofun⟩
  bind := .bind
  lookup h _ _ ha hc := by
    have hx := Value.mentionsOnly_symbol_iff.mp h
    refine ⟨congrArg Except.ok (ha _ hx), rfl, ha, hc, ?_⟩
    intro found hfound v hv
    exact hc _ hx v ((Except.ok.inj hfound).trans hv)
  define _ hv _ _ ha hc := ⟨rfl, rfl, ha.define _ _, hc.define _ hv, fun _ _ => trivial⟩
  record _ _ _ ha hc := ⟨rfl, rfl, ha, hc, fun _ _ => trivial⟩
  invoke hf ha hk hm := (hm (hf _ _ rfl)).within hk (Frame.binds_ofParameters _ ha)
  head h hv := by
    refine (Value.mentionsOnly_list_iff.mp h).1.resolve_right ?_
    rintro ⟨name, hname, rfl⟩
    exact hv name hname rfl
  tail h _ := (Value.mentionsOnly_list_iff.mp h).2
  constant _ hc := by
    rintro params body rfl
    cases hc
  number _ := nofun
  boolean _ := nofun
  void := nofun
  list _ _ := nofun
  function h := by
    rintro _ _ ⟨⟩
    exact (Value.mentionsOnly_list_iff.mp h).2 _ (by simp)

theorem eval_uniform {e : Value} (he : e.MentionsOnly names) (limit : Nat) :
    (eval limit e).Uniform names (Value.RunsWithin names) :=
  (Logic.agreement names).holds_eval eval_onlyDefines he limit

end DynLisp

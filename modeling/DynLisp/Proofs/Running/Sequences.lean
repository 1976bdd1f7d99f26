import DynLisp.Interpreter
import DynLisp.Proofs.Evaluation.Extension
import DynLisp.Proofs.Reading.RoundTrip

/-! # Programs made of programs

Programs that are written one after another within parentheses make up one program, which evaluates
them in order. Unless it runs out of frames, it behaves as they do when each is run by itself and
the first failure ends it all. -/

namespace DynLisp

/-- Texts side by side within parentheses. -/
def enclose (texts : List String) : String := "(" ++ " ".intercalate texts ++ ")"

/-- Enclosed texts of programs are the text of the program that has these as its elements. -/
theorem Program.parse_enclose {texts : List String} {program : String → List Value}
    (h : ∀ text ∈ texts, parse text = .ok (program text)) :
    parse (enclose texts) = .ok ((texts.map program).map .list) := by
  have hlex := Token.lex_intercalate id (fun text => (Value.list (program text)).flatten)
    fun text ht => (parse_eq_ok_iff.mp (h text ht)).2
  have htrees : ∀ v ∈ (texts.map program).map Value.list, IsTree v := by
    simpa using fun text ht => (parse_eq_ok_iff.mp (h text ht)).1
  refine parse_eq_ok_iff.mpr ⟨.list htrees, ?_⟩
  rw [List.map_id] at hlex
  rw [enclose, Token.lex_enclosed hlex, Value.flatten, Value.flattenAll_eq_flatMap,
    List.flatMap_map, List.flatMap_map]

/-- A list of lists evaluates them in order and drops what is no value. -/
theorem eval_list_lists (n : Nat) (lists : List (List Value)) :
    eval (n + 2) (.list (lists.map .list)) =
      (fun vs => .list (vs.filter (! ·.isVoid))) <$> Form.arguments (eval n) (lists.map .list) := by
  have hs : ∀ name rest, lists.map .list ≠ Value.symbol name :: rest := by
    intro name rest
    cases lists <;> simp
  rw [eval_list, Form.list_sequence hs, Form.sequence_eq]
  simp only [map_eq_pure_bind, bind_assoc, pure_bind]

/-! ### Programs in a row -/

namespace Interpreter

/-- Runs programs one after another, each in the scope that the one before it leaves, until one
fails. -/
def runUntilFailure (interpreter : Interpreter) :
    List String → Scope → Except Failure (List Value) × Scope
  | [], scope => (.ok [], scope)
  | source :: rest, scope =>
    let outcome := interpreter.run source scope
    match outcome.result with
    | .error failure => (.error failure, outcome.scope)
    | .ok v =>
      let (results, final) := interpreter.runUntilFailure rest outcome.scope
      (results.map (v :: ·), final)

/-- The frames suffice to write a program to the log, if there is one. -/
def CanTrace (interpreter : Interpreter) (program : List Value) : Prop :=
  interpreter.tracing = true → (Shape.ofList program).depth ≤ interpreter.limit

variable {interpreter : Interpreter} {source : String}

theorem run_of_canTrace {program : List Value} (hp : Program.parse source = .ok program)
    (ht : interpreter.CanTrace program) (scope : Scope) :
    (interpreter.run source scope).result =
        (eval interpreter.limit (.list program) scope).result.mapError .faulty ∧
      (interpreter.run source scope).scope =
        (eval interpreter.limit (.list program) scope).scope := by
  have hlog : ¬ (interpreter.tracing && interpreter.limit < (Shape.ofList program).depth) := by
    simpa [CanTrace] using ht
  simp [run, hp, runProgram, hlog]

theorem run_of_not_canTrace {program : List Value} (hp : Program.parse source = .ok program)
    (ht : ¬ interpreter.CanTrace program) (scope : Scope) :
    (interpreter.run source scope).result = .error (.faulty .recursionLimit) := by
  have hlog : interpreter.tracing && interpreter.limit < (Shape.ofList program).depth := by
    simpa [CanTrace] using ht
  simp [run, hp, runProgram, hlog]

/-- An element of a program is less deep than the program. -/
theorem CanTrace.of_mem {lists : List (List Value)} {items : List Value}
    (h : interpreter.CanTrace (lists.map .list)) (htree : IsTree (.list (lists.map .list)))
    (hm : items ∈ lists) : interpreter.CanTrace items := by
  intro htracing
  have hmem : Value.list items ∈ lists.map Value.list := List.mem_map_of_mem hm
  have hwhole := h htracing
  have hdepth := Value.depth_le_depthOfAll hmem
  rw [Shape.depth_ofList htree, Value.depth] at hwhole
  rw [Shape.depth_ofList (isTree_list_iff.mp htree _ hmem)]
  omega

variable {scope : Scope}

theorem runUntilFailure_of_error {failure : Failure} (rest : List String)
    (h : (interpreter.run source scope).result = .error failure) :
    interpreter.runUntilFailure (source :: rest) scope =
      (.error failure, (interpreter.run source scope).scope) := by
  simp [runUntilFailure, h]

theorem runUntilFailure_of_ok {v : Value} (rest : List String)
    (h : (interpreter.run source scope).result = .ok v) :
    interpreter.runUntilFailure (source :: rest) scope =
      ((interpreter.runUntilFailure rest (interpreter.run source scope).scope).1.map (v :: ·),
        (interpreter.runUntilFailure rest (interpreter.run source scope).scope).2) := by
  simp [runUntilFailure, h]

variable {texts : List String} {program : String → List Value}

/-- Programs run by themselves as they are evaluated in a row with fewer frames, if these
suffice. -/
theorem runUntilFailure_eq {n : Nat} (hn : n ≤ interpreter.limit)
    (hp : ∀ text ∈ texts, Program.parse text = .ok (program text))
    (ht : ∀ text ∈ texts, interpreter.CanTrace (program text))
    (hne : (Form.arguments (eval n) ((texts.map program).map .list) scope).result ≠
      .error .recursionLimit) :
    interpreter.runUntilFailure texts scope =
      ((Form.arguments (eval n) ((texts.map program).map .list) scope).result.mapError .faulty,
        (Form.arguments (eval n) ((texts.map program).map .list) scope).scope) := by
  induction texts generalizing scope with
  | nil => rfl
  | cons text texts ih =>
      rw [List.forall_mem_cons] at hp ht
      obtain ⟨hresult, hscope⟩ := run_of_canTrace hp.1 ht.1 scope
      -- if the frames suffice for the row, they suffice for its first program
      simp only [List.map_cons, Form.arguments_cons] at hne ⊢
      have hfirst : (eval n (.list (program text)) scope).result ≠ .error .recursionLimit :=
        fun he => hne (by rw [Eval.bind_of_error he])
      rw [eval_eq_of_le hn hfirst] at hresult hscope
      cases he : (eval n (.list (program text)) scope).result with
      | error fault =>
          rw [he] at hresult
          rw [Eval.bind_of_error he, runUntilFailure_of_error texts hresult, hscope]
          rfl
      | ok v =>
          rw [he] at hresult
          rw [Eval.bind_of_ok he, Eval.map_apply] at hne ⊢
          rw [runUntilFailure_of_ok texts hresult, hscope, ih hp.2 ht.2, map_mapError]
          intro h
          exact hne (congrArg (Except.map (v :: ·)) h)

end Interpreter

/-- Enclosed programs run as the programs do one after another until one fails, unless the frames
run out: the result is the list of their values or the failure that ended them, and the scope is the
one that they leave. -/
theorem run_enclose_eq (interpreter : Interpreter) (texts : List String) (scope : Scope)
    (hp : ∀ text ∈ texts, ∃ program, Program.parse text = .ok program)
    (hne : (interpreter.run (enclose texts) scope).result ≠ .error (.faulty .recursionLimit)) :
    (interpreter.run (enclose texts) scope).result =
        (interpreter.runUntilFailure texts scope).1.map
          (fun vs => .list (vs.filter (! ·.isVoid))) ∧
      (interpreter.run (enclose texts) scope).scope =
        (interpreter.runUntilFailure texts scope).2 := by
  choose! program hp using hp
  have hparse := Program.parse_enclose hp
  have htrace : interpreter.CanTrace ((texts.map program).map .list) :=
    Classical.byContradiction fun h => hne (Interpreter.run_of_not_canTrace hparse h scope)
  obtain ⟨hresult, hscope⟩ := Interpreter.run_of_canTrace hparse htrace scope
  obtain ⟨n, hn⟩ : ∃ n, interpreter.limit = n + 2 :=
    exists_limit_eq fun h => hne (by rw [hresult, h]; rfl)
  -- the elements have two frames less than the programs by themselves
  rw [hn, eval_list_lists, Eval.map_apply] at hresult hscope
  have htree := (Program.parse_eq_ok_iff.mp hparse).1
  have hparts : ∀ text ∈ texts, interpreter.CanTrace (program text) :=
    fun text ht => htrace.of_mem htree (List.mem_map_of_mem ht)
  rw [Interpreter.runUntilFailure_eq (by omega : n ≤ interpreter.limit) hp hparts, map_mapError]
  · exact ⟨hresult, hscope⟩
  · intro h
    exact hne (by rw [hresult, h]; rfl)

/-- A definition, a sum that uses it and an empty program. -/
theorem run_enclose_eq_sum :
    let texts := ["(define x 1)", "(+ x 2)", "()"]
    let scope := Scope.ofFrame .empty
    (∀ text ∈ texts, ∃ program, Program.parse text = .ok program) ∧
      (Interpreter.run ⟨16, true⟩ (enclose texts) scope).result.isOk ∧
      (Interpreter.run ⟨16, true⟩ (enclose texts) scope).result =
        (Interpreter.runUntilFailure ⟨16, true⟩ texts scope).1.map
          (fun vs => .list (vs.filter (! ·.isVoid))) ∧
      (Interpreter.run ⟨16, true⟩ (enclose texts) scope).scope =
        (Interpreter.runUntilFailure ⟨16, true⟩ texts scope).2 := by
  intro texts scope
  have hparse : texts.all fun text => (Program.parse text).isOk := by
    decide +kernel
  have hp : ∀ text ∈ texts, ∃ program, Program.parse text = .ok program := by
    intro text ht
    have hok := List.all_eq_true.mp hparse text ht
    cases h : Program.parse text with
    | error fault => simp [h, Except.isOk, Except.toBool] at hok
    | ok program => exact ⟨program, rfl⟩
  have hok : (Interpreter.run ⟨16, true⟩ (enclose texts) scope).result.isOk := by
    decide +kernel
  have hne : (Interpreter.run ⟨16, true⟩ (enclose texts) scope).result ≠
      .error (.faulty .recursionLimit) := by
    intro he
    simp [he, Except.isOk, Except.toBool] at hok
  exact ⟨hp, hok, run_enclose_eq ⟨16, true⟩ texts scope hp hne⟩

end DynLisp

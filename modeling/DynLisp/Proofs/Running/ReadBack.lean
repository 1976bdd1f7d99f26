import DynLisp.Proofs.Running.Dialogue
import DynLisp.Proofs.Running.Domain

/-! # Reading results back

The display of a list that a program has for its value is source text, although truth values and
functions cannot be written. A truth value is read back as a symbol. A function is read back in
pieces, which become elements of the list around it. Only a list that is nested too deeply for the
frames has no display. -/

namespace DynLisp

namespace Value

mutual

/-- What is read for a value where its display stands in a list. A value that programs do not have
in lists is left out. -/
def readBack : Value → List Value
  | .number n => [.number n]
  | .boolean b => [.symbol (if b then "true" else "false")]
  | .list items => [.list (readBackAll items)]
  | .lambda params body => .symbol "Lambda" :: .list (params.map .symbol) :: body
  | .symbol _ | .void | .null | .text _ => []

/-- What is read for the elements of a list, in order. -/
def readBackAll : List Value → List Value
  | [] => []
  | v :: vs => v.readBack ++ readBackAll vs

end

theorem readBackAll_eq_flatMap (vs : List Value) : readBackAll vs = vs.flatMap readBack := by
  induction vs with
  | nil => rfl
  | cons v vs ih => simp [readBackAll, ih]

theorem flattenAll_readBackAll (vs : List Value) :
    flattenAll (readBackAll vs) = vs.flatMap fun v => flattenAll v.readBack := by
  simp only [flattenAll_eq_flatMap, readBackAll_eq_flatMap, List.flatMap_assoc]

end Value

/-! ### The display of a result -/

theorem IsName.lex {name : String} (h : IsName name) :
    Token.lex name.toList = .ok [.symbol name] :=
  Token.lex_word h.ne_nil h.isSeparator_eq_false h.ofWord

theorem isName_truth (b : Bool) : IsName (if b then "true" else "false") := by
  cases b with
  | true => exact isName_of_not_isDigit (by decide) (by decide)
  | false => exact isName_of_not_isDigit (by decide) (by decide)

theorem isName_functionMark : IsName "Lambda" :=
  isName_of_not_isDigit (by decide) (by decide)

/-- Texts with a blank before each are a blank and the texts with blanks between them. -/
theorem join_map_blank (text : String) (texts : List String) :
    String.join ((text :: texts).map (" " ++ ·)) = " " ++ " ".intercalate (text :: texts) := by
  induction texts generalizing text with
  | nil => simp
  | cons next texts ih =>
      rw [List.map_cons, String.join_cons, ih, String.intercalate_cons_cons]
      simp only [String.append_assoc]

theorem Token.lex_join_blank {α : Type} (text : α → String) (tokens : α → List Token)
    {as : List α} (h : ∀ a ∈ as, lex (text a).toList = .ok (tokens a)) :
    lex (String.join ((as.map text).map (" " ++ ·))).toList = .ok (as.flatMap tokens) := by
  have hall := lex_intercalate text tokens h
  cases as with
  | nil => rfl
  | cons a as =>
      have hnil : lex [] = .ok [] := rfl
      have hblank := lex_append_blank (c := ' ') (by decide) hnil hall
      rw [List.map_cons, join_map_blank]
      simpa using hblank

/-- The display of a function has the tokens of its pieces: the parenthesis after the word at its
beginning parts the two as a blank would. -/
theorem lex_display_lambda {params : List String} {body : List Value}
    (hp : ∀ name ∈ params, IsName name) (hb : Readable (.list body)) :
    Token.lex (Value.lambda params body).display.toList =
      .ok (Value.flattenAll (Value.lambda params body).readBack) := by
  have hparams := Token.lex_intercalate id (fun name => [Token.symbol name])
    fun name hn => (hp name hn).lex
  have hbody := Token.lex_join_blank Value.display Value.flatten
    fun v hv => (readable_list_iff.mp hb v hv).lex_display
  have hclose := Token.lex_append_parenthesis (c := ')') rfl rfl hparams hbody
  have hopen := Token.lex_append_parenthesis (c := '(') rfl rfl isName_functionMark.lex hclose
  have hsymbols : Value.flattenAll (params.map .symbol) =
      params.flatMap fun name => [Token.symbol name] := by
    simp [Value.flattenAll_eq_flatMap, List.flatMap_map, Value.flatten]
  simpa [Value.display, Value.functionText, Value.displayAll_eq_map, Value.readBack, Value.flattenAll, Value.flatten,
    hsymbols, Value.flattenAll_eq_flatMap body] using hopen

/-- The display of a value has the tokens of what is read back for it. -/
theorem InDomain.lex_display {v : Value} (h : InDomain v) (hv : v ≠ .void) :
    Token.lex v.display.toList = .ok (Value.flattenAll v.readBack) := by
  induction h with
  | @number n hn =>
      simpa [Value.readBack, Value.flattenAll] using (Readable.number hn).lex_display
  | boolean b =>
      simpa [Value.display, Value.readBack, Value.flatten] using (isName_truth b).lex
  | void => exact absurd rfl hv
  | @list items _ hvoid ih =>
      have hitems : ∀ v ∈ items, Token.lex v.display.toList = .ok (Value.flattenAll v.readBack) :=
        fun v hm => ih v hm fun he => hvoid (he ▸ hm)
      have hall := Token.lex_enclosed (Token.lex_intercalate Value.display _ hitems)
      rw [Value.display, Value.listText, Value.displayAll_eq_map, hall]
      simp [Value.readBack, Value.flatten, Value.flattenAll_readBackAll]
  | lambda hp hb => exact lex_display_lambda hp hb

/-- What is read back can be written. -/
theorem InDomain.readable_readBack {v : Value} (h : InDomain v) : ∀ w ∈ v.readBack, Readable w := by
  induction h with
  | number hn => simpa [Value.readBack] using Readable.number hn
  | boolean b => simpa [Value.readBack] using Readable.symbol (isName_truth b)
  | void => simp [Value.readBack]
  | @list items _ _ ih =>
      refine List.forall_mem_singleton.mpr (.list fun w hw => ?_)
      rw [Value.readBackAll_eq_flatMap] at hw
      obtain ⟨v, hv, hw⟩ := List.mem_flatMap.mp hw
      exact ih v hv w hw
  | @lambda params body hp hb =>
      have hparams : Readable (.list (params.map .symbol)) := by
        refine .list fun w hw => ?_
        obtain ⟨name, hname, rfl⟩ := List.mem_map.mp hw
        exact .symbol (hp name hname)
      simp only [Value.readBack, List.forall_mem_cons]
      exact ⟨.symbol isName_functionMark, hparams, readable_list_iff.mp hb⟩

/-- A list that programs compute is read back from its display. -/
theorem InDomain.parse_display {items : List Value} (h : InDomain (.list items)) :
    Program.parse (Value.list items).display = .ok (Value.readBackAll items) := by
  have htree : Readable (.list (Value.readBackAll items)) :=
    h.readable_readBack _ (by simp [Value.readBack])
  refine Program.parse_eq_ok_iff.mpr ⟨htree.isTree, ?_⟩
  simpa [Value.readBack, Value.flattenAll] using h.lex_display (by simp)

/-! ### Programs -/

namespace Interpreter

/-- A list that one of some programs gives has a text, and this is read back with the truth values
as symbols and the functions in pieces. -/
theorem parse_display_result {interpreter : Interpreter} {sources : List String}
    {items : List Value}
    (h : .ok (.list items) ∈ (interpreter.runAll sources (.ofFrame .empty)).1) :
    ∃ text, (Value.list items).HasText text ∧
      Program.parse text = .ok (Value.readBackAll items) := by
  have hempty : (Scope.ofFrame .empty).Binds InDomain :=
    List.forall_mem_singleton.mpr Frame.binds_empty
  have hdomain := (interpreter.runAll_keeps_domain sources hempty).2 _ h
  exact ⟨_, Value.hasText_iff.mpr rfl, hdomain.parse_display⟩

theorem parse_display_result_function :
    let items := [.boolean true, .lambda ["x"] [.number 7]]
    .ok (.list items) ∈ (runAll ⟨16, false⟩ ["((o_O 1 2) (lambda (x) (7)))"] (.ofFrame .empty)).1 ∧
      display? ⟨16, false⟩ (.list items) = some "(true Lambda(x) 7)" ∧
      Program.parse "(true Lambda(x) 7)" =
        .ok [.symbol "true", .symbol "Lambda", .list [.symbol "x"], .number 7] := by
  intro items
  let comparison := Value.list [.symbol "o_O", .number 1, .number 2]
  let function := Value.list [.symbol "lambda", .list [.symbol "x"], .list [.number 7]]
  have htree : IsTree (.list [comparison, function]) := by
    simp [comparison, function, isTree_list_iff, IsTree.symbol, IsTree.number]
  have hparse : Program.parse "((o_O 1 2) (lambda (x) (7)))" = .ok [comparison, function] :=
    Program.parse_eq_ok_iff.mpr ⟨htree, by decide +kernel⟩
  have hrun : (run ⟨16, false⟩ "((o_O 1 2) (lambda (x) (7)))" (.ofFrame .empty)).result =
      .ok (.list items) := by
    simp only [run, hparse]
    rfl
  have hmem : .ok (.list items) ∈
      (runAll ⟨16, false⟩ ["((o_O 1 2) (lambda (x) (7)))"] (.ofFrame .empty)).1 :=
    List.mem_singleton.mpr hrun.symm
  have hdisplay : (Value.list items).display = "(true Lambda(x) 7)" := by
    decide +kernel
  obtain ⟨text, htext, hparse⟩ := parse_display_result hmem
  obtain rfl := Value.hasText_iff.mp htext
  rw [hdisplay] at hparse
  exact ⟨hmem, by decide +kernel, hparse⟩

/-! ### A list that cannot be displayed -/

/-- A program that has for its value a list of one function, with lists inside one another for its
body. -/
def listedFunction (n : Nat) : List Value := [.list (Repl.nestedFunction n)]

theorem result_run_listedFunction (limit n : Nat) (scope : Scope) :
    (run ⟨limit + 4, false⟩ (Value.list (listedFunction n)).display scope).result =
      .ok (.list [.lambda [] [Value.nested n]]) := by
  have hreadable : Readable (.list (listedFunction n)) :=
    .list (List.forall_mem_singleton.mpr (Repl.readable_nestedFunction n))
  have hsequence : ∀ name rest, listedFunction n ≠ .symbol name :: rest := by
    simp [listedFunction]
  simp only [run, Program.parse_display hreadable, runProgram, Bool.false_and, eval_list,
    Form.list_sequence hsequence]
  simp [listedFunction, Form.sequence, Repl.eval_nestedFunction, Eval.pure_apply, Value.isVoid]

theorem display?_listedFunction {interpreter : Interpreter} {n : Nat}
    (h : interpreter.limit ≤ n) :
    interpreter.display? (.list [.lambda [] [Value.nested n]]) = none := by
  have hdepth : (Value.list [.lambda [] [Value.nested n]]).depth = n + 3 := by
    simp [Value.depth, Value.depthOfAll, Value.depth_nested]
  refine Value.displayIn?_of_le_depth ?_
  omega

/-- A program may take fewer frames than the display of its value: the body of a function in it is
not evaluated. -/
theorem exists_result_without_display :
    ¬ ∀ (sources : List String) (items : List Value),
      .ok (.list items) ∈ (standard.runAll sources (.ofFrame .empty)).1 →
      ∃ text, standard.display? (.list items) = some text ∧
        Program.parse text = .ok (Value.readBackAll items) := by
  intro h
  have hrun := result_run_listedFunction 996 1000 (.ofFrame .empty)
  obtain ⟨text, htext, _⟩ := h [_] _ (List.mem_singleton.mpr hrun.symm)
  have hnone := display?_listedFunction (show standard.limit ≤ 1000 by decide)
  exact absurd (hnone.symm.trans htext) (by simp)

end Interpreter

end DynLisp

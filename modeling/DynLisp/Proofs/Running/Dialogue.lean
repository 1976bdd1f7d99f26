import DynLisp.Proofs.Evaluation.Computations
import DynLisp.Proofs.Reading.Lines
import DynLisp.Repl

/-! # The interactive loop as a run of programs

The loop does what an interpreter does that runs the lines in order as they were typed, without the
blank ones and up to the line `exit`. It prints a prompt for every line it reads and the answer to
every program, until a program has no answer. -/

namespace DynLisp

/-- Whether there is an answer to the result of a program: the language can report the failure, and
the frames suffice to display the value. -/
def Interpreter.canAnswer (interpreter : Interpreter) : Except Failure Value → Bool
  | .error failure => !failure.isFatal
  | .ok v => interpreter.canDisplay v

namespace Repl

/-- A line without the blanks at its ends. -/
def stripped (line : String) : String := String.ofList (Text.strip line.toList)

/-- The lines of an input as they were typed. -/
def typedLines (input : String) : List String := (Text.rawLines input.toList).map String.ofList

/-- The lines before the one that leaves the loop. -/
def untilExit (lines : List String) : List String :=
  lines.takeWhile fun line => stripped line != "exit"

/-- The programs among the lines before the one that leaves the loop, as they were typed. -/
def programs (lines : List String) : List String :=
  (untilExit lines).filter fun line => stripped line != ""

/-- What is printed for the result of a program. -/
def answer : Except Failure Value → String
  | .error failure => failure.message ++ "\n"
  | .ok .void => ""
  | .ok (.lambda params body) => String.join ((Value.lambdaLines params body).map (· ++ "\n"))
  | .ok v => v.display ++ "\n"

/-- What is printed for lines of which the programs have the given results. It breaks off after the
prompt for a program that is left without a result. -/
def dialogue (prompt : String) : List String → List (Except Failure Value) → String
  | [], _ => ""
  | line :: lines, results =>
    if stripped line = "" then prompt ++ dialogue prompt lines results
    else match results with
      | [] => prompt
      | result :: results => prompt ++ answer result ++ dialogue prompt lines results

/-- The results of the programs among some lines, up to the first one that is not answered. -/
def answered (answers : Except Failure Value → Bool) (interpreter : Interpreter)
    (lines : List String) (scope : Scope) : List (Except Failure Value) :=
  (interpreter.runAll (programs lines) scope).1.takeWhile answers

/-- A transcript is what an interpreter makes of the programs among some lines: it leaves the scope
that the programs leave, the first one that is not answered included, and it ends in a farewell if
all are answered. -/
structure Transcript.IsLineByLine (answers : Except Failure Value → Bool) (console : Console)
    (lines : List String) (scope : Scope) (transcript : Transcript) : Prop where
  scope_eq : transcript.scope =
    (console.interpreter.runAll
      ((programs lines).take
        ((answered answers console.interpreter lines scope).length + 1)) scope).2
  output_eq : transcript.output =
    dialogue console.prompt (untilExit lines)
        (answered answers console.interpreter lines scope) ++
      if (answered answers console.interpreter lines scope).length = (programs lines).length then
        console.prompt ++ "Exit..\n"
      else ""

/-! ### Lines -/

theorem turn_eq_of_stripped {line line' : String} (h : stripped line = stripped line')
    (interpreter : Interpreter) (scope : Scope) :
    turn interpreter line scope = turn interpreter line' scope := by
  unfold stripped at h
  simp only [turn, h]

/-- The blanks at the ends of lines make no difference to the loop. -/
theorem loop_eq_of_stripped {lines lines' : List String}
    (h : lines.map stripped = lines'.map stripped) (console : Console) (scope : Scope) :
    loop console lines scope = loop console lines' scope := by
  induction lines generalizing lines' scope with
  | nil =>
      obtain rfl : lines' = [] := by simpa [eq_comm] using h
      rfl
  | cons line lines ih =>
      obtain ⟨line', rest, rfl, hline, hrest⟩ := List.map_eq_cons_iff.mp h.symm
      simp only [loop, turn_eq_of_stripped hline.symm, ih hrest.symm]

theorem run_eq_loop (console : Console) (input : String) (scope : Scope) :
    run console input scope = loop console (typedLines input) scope := by
  refine loop_eq_of_stripped ?_ console scope
  have hstrip := congrArg (List.map String.ofList) (Text.map_strip_rawLines input.toList)
  simpa [typedLines, stripped, Function.comp_def] using hstrip.symm

theorem run_stripped (interpreter : Interpreter) (line : String) (scope : Scope) :
    interpreter.run (stripped line) scope = interpreter.run line scope := by
  simp only [Interpreter.run, stripped, Program.parse_strip]

variable {interpreter : Interpreter} {line : String} {scope : Scope}

theorem turn_exit (h : stripped line = "exit") :
    turn interpreter line scope = ⟨farewell, [], scope, .stop⟩ := by
  unfold stripped at h
  simp only [turn, h, if_true]

theorem turn_blank (h : stripped line = "") :
    turn interpreter line scope = ⟨"", [], scope, .more⟩ := by
  unfold stripped at h
  simp [turn, h]

theorem turn_program (he : stripped line ≠ "exit") (hb : stripped line ≠ "") :
    turn interpreter line scope = runLine interpreter (stripped line) scope := by
  unfold stripped at he hb
  simp only [turn, stripped, he, hb, if_false]

theorem answer_ok (v : Value) : answer (.ok v) = printed v := by
  cases v <;> simp [answer, printed, onLines]

/-- An answer is printed after the program it answers, and the loop goes on. -/
theorem runLine_of_canAnswer
    (h : interpreter.canAnswer (interpreter.run line scope).result = true) :
    (runLine interpreter (stripped line) scope).output =
        answer (interpreter.run line scope).result ∧
      (runLine interpreter (stripped line) scope).next = .more := by
  simp only [runLine, run_stripped]
  cases hr : (interpreter.run line scope).result with
  | ok v =>
      have hv : interpreter.canDisplay v = true := by simpa [hr, Interpreter.canAnswer] using h
      simp [hv, answer_ok]
  | error failure =>
      have hf : failure.isFatal = false := by simpa [hr, Interpreter.canAnswer] using h
      simp [hf, answer, onLines]

/-- A program without an answer ends the loop, and nothing is printed for it. -/
theorem runLine_of_not_canAnswer
    (h : interpreter.canAnswer (interpreter.run line scope).result = false) :
    (runLine interpreter (stripped line) scope).output = "" ∧
      ∃ cause, (runLine interpreter (stripped line) scope).next = .abort cause := by
  simp only [runLine, run_stripped]
  cases hr : (interpreter.run line scope).result with
  | ok v =>
      have hv : interpreter.canDisplay v = false := by simpa [hr, Interpreter.canAnswer] using h
      simp [hv]
  | error failure =>
      have hf : failure.isFatal = true := by simpa [hr, Interpreter.canAnswer] using h
      simp [hf]

theorem scope_runLine (interpreter : Interpreter) (line : String) (scope : Scope) :
    (runLine interpreter (stripped line) scope).scope = (interpreter.run line scope).scope := by
  simp only [runLine, run_stripped]
  split
  · split <;> rfl
  · split <;> rfl

/-! ### The loop -/

variable {console : Console} {lines : List String}

@[simp]
theorem untilExit_nil : untilExit [] = [] := rfl

@[simp]
theorem programs_nil : programs [] = [] := rfl

@[simp]
theorem answered_nil (answers : Except Failure Value → Bool) :
    answered answers interpreter [] scope = [] := rfl

theorem untilExit_exit (h : stripped line = "exit") : untilExit (line :: lines) = [] := by
  simp [untilExit, h]

theorem untilExit_cons (h : stripped line ≠ "exit") :
    untilExit (line :: lines) = line :: untilExit lines := by
  simp [untilExit, h]

theorem programs_exit (h : stripped line = "exit") : programs (line :: lines) = [] := by
  simp [programs, untilExit_exit h]

theorem programs_blank (h : stripped line = "") : programs (line :: lines) = programs lines := by
  have he : stripped line ≠ "exit" := by simp [h]
  simp [programs, untilExit_cons he, h]

theorem programs_cons (he : stripped line ≠ "exit") (hb : stripped line ≠ "") :
    programs (line :: lines) = line :: programs lines := by
  simp [programs, untilExit_cons he, hb]

theorem answered_blank (answers : Except Failure Value → Bool) (h : stripped line = "") :
    answered answers interpreter (line :: lines) scope =
      answered answers interpreter lines scope := by
  simp only [answered, programs_blank h]

theorem answered_cons_of_pos {answers : Except Failure Value → Bool}
    (he : stripped line ≠ "exit") (hb : stripped line ≠ "")
    (h : answers (interpreter.run line scope).result = true) :
    answered answers interpreter (line :: lines) scope =
      (interpreter.run line scope).result ::
        answered answers interpreter lines (interpreter.run line scope).scope := by
  simp only [answered, programs_cons he hb, Interpreter.runAll, List.takeWhile_cons_of_pos h]

theorem answered_cons_of_neg {answers : Except Failure Value → Bool}
    (he : stripped line ≠ "exit") (hb : stripped line ≠ "")
    (h : answers (interpreter.run line scope).result = false) :
    answered answers interpreter (line :: lines) scope = [] := by
  simp [answered, programs_cons he hb, Interpreter.runAll, h]

/-- A transcript that goes on after an answered program. -/
theorem isLineByLine_answered (he : stripped line ≠ "exit") (hb : stripped line ≠ "")
    (h : console.interpreter.canAnswer (console.interpreter.run line scope).result = true)
    (ih : (loop console lines (console.interpreter.run line scope).scope).IsLineByLine
      console.interpreter.canAnswer console lines (console.interpreter.run line scope).scope) :
    (loop console (line :: lines) scope).IsLineByLine console.interpreter.canAnswer console
      (line :: lines) scope := by
  obtain ⟨hout, hnext⟩ := runLine_of_canAnswer h
  constructor
  · simp only [loop, turn_program he hb, hnext, scope_runLine, answered_cons_of_pos he hb h,
      programs_cons he hb, List.length_cons, List.take_succ_cons, Interpreter.runAll]
    exact ih.scope_eq
  · simp only [loop, turn_program he hb, hnext, scope_runLine, answered_cons_of_pos he hb h,
      programs_cons he hb, hout, ih.output_eq, untilExit_cons he, dialogue, if_neg hb, List.length_cons,
      Nat.add_right_cancel_iff, String.append_assoc]

theorem isLineByLine_unanswered (he : stripped line ≠ "exit") (hb : stripped line ≠ "")
    (h : console.interpreter.canAnswer (console.interpreter.run line scope).result = false) :
    (loop console (line :: lines) scope).IsLineByLine console.interpreter.canAnswer console
      (line :: lines) scope := by
  obtain ⟨hout, cause, hnext⟩ := runLine_of_not_canAnswer h
  constructor
  · simp [loop, turn_program he hb, hnext, scope_runLine, answered_cons_of_neg he hb h,
      programs_cons he hb, Interpreter.runAll]
  · simp [loop, turn_program he hb, hnext, answered_cons_of_neg he hb h, programs_cons he hb, hout,
      untilExit_cons he, dialogue, hb]

theorem loop_isLineByLine (console : Console) (lines : List String) (scope : Scope) :
    (loop console lines scope).IsLineByLine console.interpreter.canAnswer console lines scope := by
  induction lines generalizing scope with
  | nil =>
      constructor
      · rfl
      · simp [loop, dialogue, farewell]
  | cons line lines ih =>
      by_cases he : stripped line = "exit"
      · constructor
        · simp [loop, turn_exit he, programs_exit he, Interpreter.runAll]
        · simp [loop, turn_exit he, programs_exit he, untilExit_exit he, answered, dialogue,
            Interpreter.runAll, farewell]
      by_cases hb : stripped line = ""
      · obtain ⟨hscope, hout⟩ := ih scope
        constructor
        · simpa [loop, turn_blank hb, programs_blank hb, answered_blank _ hb] using hscope
        · simp only [loop, turn_blank hb, programs_blank hb, answered_blank _ hb, hout,
            untilExit_cons he, dialogue, if_pos hb, String.append_empty, String.append_assoc]
      cases h : console.interpreter.canAnswer (console.interpreter.run line scope).result with
      | true => exact isLineByLine_answered he hb h (ih _)
      | false => exact isLineByLine_unanswered he hb h

/-- The loop is a run of the programs among the lines of its input. It reads no line after a program
that fails beyond what the language can report or has a value too deep to be displayed. -/
theorem run_isLineByLine (console : Console) (input : String) (scope : Scope) :
    (run console input scope).IsLineByLine console.interpreter.canAnswer console
      (typedLines input) scope := by
  rw [run_eq_loop]
  exact loop_isLineByLine console (typedLines input) scope

/-! ### A value that cannot be displayed -/

/-- Whether a program has a value or fails in a way that the language can report. -/
def isReported : Except Failure Value → Bool
  | .error failure => !failure.isFatal
  | .ok _ => true

/-- A function without parameters that has lists inside one another for its body. -/
def nestedFunction (n : Nat) : List Value := [.symbol "lambda", .list [], .list [Value.nested n]]

theorem readable_nestedFunction (n : Nat) : Readable (.list (nestedFunction n)) := by
  have hname : IsName "lambda" := isName_of_not_isDigit (by decide) (by decide)
  have hbody : Readable (.list [Value.nested n]) :=
    .list (List.forall_mem_singleton.mpr (Value.readable_nested n))
  refine .list ?_
  simp only [nestedFunction, List.forall_mem_cons]
  exact ⟨.symbol hname, .list (by simp), hbody, by simp⟩

theorem eval_nestedFunction (limit n : Nat) :
    eval (limit + 2) (.list (nestedFunction n)) = pure (.lambda [] [Value.nested n]) := by
  rw [eval_list]
  rfl

/-- A program is neither a blank line nor the line that leaves the loop. -/
theorem stripped_ne_of_parse {text word : String} {items : List Value}
    (h : Program.parse text = .ok items) (hw : (Program.parse word).isOk = false) :
    stripped text ≠ word := by
  intro he
  rw [← he, stripped, Program.parse_strip, h] at hw
  cases hw

theorem typedLines_display {v : Value} (h : Readable v) (hne : v.display.toList ≠ []) :
    typedLines v.display = [v.display] := by
  rw [typedLines, Text.rawLines_eq_singleton hne h.newline_not_mem_display, List.map_singleton,
    String.ofList_toList]

/-- A function that cannot be displayed ends the loop, although the program that has it for its
value does not fail. -/
theorem not_isLineByLine_nestedFunction {limit n : Nat} (h : limit ≤ n) :
    let text := (Value.list (nestedFunction n)).display
    let console : Console := ⟨"", ⟨limit + 2, false⟩⟩
    ¬ (run console text scope).IsLineByLine isReported console (typedLines text) scope := by
  intro text console hclaim
  have hparse : Program.parse text = .ok (nestedFunction n) :=
    Program.parse_display (readable_nestedFunction n)
  have hlines : typedLines text = [text] :=
    typedLines_display (readable_nestedFunction n) (by simp [Value.display, Value.listText])
  have he : stripped text ≠ "exit" := stripped_ne_of_parse hparse (by decide +kernel)
  have hb : stripped text ≠ "" := stripped_ne_of_parse hparse (by decide +kernel)
  have hresult : (console.interpreter.run text scope).result = .ok (.lambda [] [Value.nested n]) := by
    simp [Interpreter.run, hparse, Interpreter.runProgram, console, eval_nestedFunction,
      Eval.pure_apply]
  have hdeep : console.interpreter.canAnswer (console.interpreter.run text scope).result =
      false := by
    have hdepth : limit + 2 ≤ (Value.lambda [] [Value.nested n]).depth := by
      simpa [Value.depth, Value.depthOfAll, Value.depth_nested] using h
    rw [hresult, Interpreter.canAnswer, Interpreter.canDisplay, Value.canDisplayIn,
      Value.displayIn?_of_le_depth hdepth]
    rfl
  have hclaimed := hclaim.output_eq
  have hactual := (loop_isLineByLine console (typedLines text) scope).output_eq
  rw [run_eq_loop, hactual, hlines, answered_cons_of_neg he hb hdeep,
    answered_cons_of_pos he hb (by rw [hresult]; rfl)] at hclaimed
  -- what is claimed to be printed ends in a farewell, and nothing is printed
  simp [programs_cons he hb, untilExit_cons he, dialogue, hb, console] at hclaimed

/-- It does not suffice for the loop to go on that every program has a value or fails in a way that
the language can report. -/
theorem run_not_isLineByLine_isReported :
    ¬ ∀ (prompt input : String),
      (run ⟨prompt, .standard⟩ input (.ofFrame .empty)).IsLineByLine isReported ⟨prompt, .standard⟩
        (typedLines input) (.ofFrame .empty) := by
  intro h
  have hlimit : 998 ≤ 1000 := by decide
  exact not_isLineByLine_nestedFunction hlimit (h "" _)

end Repl

end DynLisp

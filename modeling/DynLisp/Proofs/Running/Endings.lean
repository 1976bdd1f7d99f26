import DynLisp.Proofs.Reading.Refusal
import DynLisp.Proofs.Running.Dialogue
import Mathlib.Data.List.TakeWhile

/-! # How the interactive loop ends

The loop goes through all its lines and takes its leave unless a program cannot be answered. There
are two kinds of such programs: those with a numeral of too many digits, and those whose value is
nested too deeply for the frames that display it. -/

namespace DynLisp

theorem Failure.isFatal_iff {failure : Failure} :
    failure.isFatal = true ↔ ∃ count, failure = .unreadable (.word (.tooManyDigits count)) := by
  unfold isFatal
  split
  · simp
  · rename_i hne
    simpa using hne

namespace Interpreter

variable {interpreter : Interpreter} {source : String} {scope : Scope}

/-- A program fails by its text exactly if the text cannot be read. -/
theorem run_eq_unreadable_iff (interpreter : Interpreter) (source : String) (scope : Scope)
    (fault : ReadFault) :
    (interpreter.run source scope).result = .error (.unreadable fault) ↔
      Program.parse source = .error fault := by
  unfold run
  cases Program.parse source with
  | error cause => simp
  | ok program =>
      simp only [runProgram, reduceCtorEq, iff_false]
      split
      · simp
      · cases (eval interpreter.limit (.list program) scope).result <;> simp

/-- A program is answered unless it has a numeral of too many digits or a value that is too deep. -/
theorem canAnswer_run_iff :
    interpreter.canAnswer (interpreter.run source scope).result = true ↔
      ¬ HasLongNumeral source.toList ∧
        ∀ v, .ok v = (interpreter.run source scope).result → interpreter.canDisplay v = true := by
  rw [← Program.exists_parse_eq_tooManyDigits_iff]
  simp only [← interpreter.run_eq_unreadable_iff source scope]
  cases (interpreter.run source scope).result with
  | ok v => simp [canAnswer]
  | error failure => simp [canAnswer, Bool.eq_false_iff, Failure.isFatal_iff]

/-- Programs are all answered unless one of them has a numeral of too many digits or a value that is
too deep. -/
theorem forall_canAnswer_iff (sources : List String) (scope : Scope) :
    (∀ result ∈ (interpreter.runAll sources scope).1, interpreter.canAnswer result = true) ↔
      (∀ source ∈ sources, ¬ HasLongNumeral source.toList) ∧
        ∀ v, .ok v ∈ (interpreter.runAll sources scope).1 → interpreter.canDisplay v = true := by
  induction sources generalizing scope with
  | nil => simp [runAll]
  | cons source sources ih =>
      simp only [runAll, List.mem_cons, or_imp, forall_and, forall_eq, canAnswer_run_iff, ih]
      exact and_and_and_comm

theorem length_runAll (sources : List String) (scope : Scope) :
    (interpreter.runAll sources scope).1.length = sources.length := by
  induction sources generalizing scope with
  | nil => rfl
  | cons source sources ih => simp [runAll, ih]

end Interpreter

namespace Repl

variable {console : Console}

/-- The loop is aborted exactly if some program cannot be answered. -/
theorem aborted_loop_eq_none_iff (lines : List String) (scope : Scope) :
    (loop console lines scope).aborted = none ↔
      ∀ result ∈ (console.interpreter.runAll (programs lines) scope).1,
        console.interpreter.canAnswer result = true := by
  induction lines generalizing scope with
  | nil => simp [loop, Interpreter.runAll]
  | cons line lines ih =>
      by_cases he : stripped line = "exit"
      · simp [loop, turn_exit he, programs_exit he, Interpreter.runAll]
      by_cases hb : stripped line = ""
      · simpa [loop, turn_blank hb, programs_blank hb] using ih scope
      rw [programs_cons he hb, Interpreter.runAll, List.forall_mem_cons]
      cases h : console.interpreter.canAnswer (console.interpreter.run line scope).result with
      | true =>
          obtain ⟨_, hnext⟩ := runLine_of_canAnswer h
          simpa [loop, turn_program he hb, hnext, scope_runLine] using ih _
      | false =>
          obtain ⟨_, cause, hnext⟩ := runLine_of_not_canAnswer h
          simp [loop, turn_program he hb, hnext]

/-- All programs among some lines have been run and answered, no line was left out, and the loop has
taken its leave. -/
structure Transcript.IsComplete (console : Console) (lines : List String) (scope : Scope)
    (transcript : Transcript) : Prop where
  aborted_eq : transcript.aborted = none
  scope_eq : transcript.scope = (console.interpreter.runAll (programs lines) scope).2
  output_eq : transcript.output =
    dialogue console.prompt (untilExit lines)
        (console.interpreter.runAll (programs lines) scope).1 ++
      (console.prompt ++ "Exit..\n")

/-- The loop goes through its lines to the end exactly if all programs can be answered. -/
theorem loop_isComplete_iff {lines : List String} {scope : Scope} :
    (loop console lines scope).IsComplete console lines scope ↔
      ∀ result ∈ (console.interpreter.runAll (programs lines) scope).1,
        console.interpreter.canAnswer result = true := by
  refine ⟨fun h => (aborted_loop_eq_none_iff lines scope).mp h.aborted_eq, fun h => ?_⟩
  have hall : answered console.interpreter.canAnswer console.interpreter lines scope =
      (console.interpreter.runAll (programs lines) scope).1 :=
    List.takeWhile_eq_self_iff.mpr h
  obtain ⟨hscope, houtput⟩ := loop_isLineByLine console lines scope
  rw [hall, Interpreter.length_runAll] at hscope houtput
  constructor
  · exact (aborted_loop_eq_none_iff lines scope).mpr h
  · rw [hscope, List.take_of_length_le (Nat.le_succ _)]
  · rw [houtput, if_pos rfl]

/-- The loop goes through its lines to the end unless a program has a numeral of too many digits or
a value that cannot be displayed in the frames there are. -/
theorem run_isComplete_iff (console : Console) (input : String) :
    (run console input (.ofFrame .empty)).IsComplete console (typedLines input)
        (.ofFrame .empty) ↔
      (∀ line ∈ programs (typedLines input), ¬ HasLongNumeral line.toList) ∧
        ∀ v, .ok v ∈ (console.interpreter.runAll (programs (typedLines input))
            (.ofFrame .empty)).1 → console.interpreter.canDisplay v = true := by
  rw [run_eq_loop, loop_isComplete_iff]
  exact Interpreter.forall_canAnswer_iff _ _

/-! ### A numeral of too many digits -/

/-- A line with a numeral of too many digits is a program. -/
theorem mem_programs_of_hasLongNumeral {line : String} (h : HasLongNumeral line.toList) :
    line ∈ programs [line] := by
  have hstrip : HasLongNumeral (stripped line).toList := by
    simpa only [HasLongNumeral, stripped, String.toList_ofList, sourceWords_strip] using h
  have hexit : Token.lex "exit".toList = .ok [.symbol "exit"] := by decide
  have he : stripped line ≠ "exit" := by
    intro he
    rw [he] at hstrip
    exact Token.not_hasLongNumeral_of_lex hexit hstrip
  have hb : stripped line ≠ "" := by
    intro hb
    rw [hb] at hstrip
    exact Token.not_hasLongNumeral_of_lex rfl hstrip
  rw [programs_cons he hb]
  exact List.mem_cons_self

/-- A call with a run of ones for its argument. -/
def callOnOnes (count : Nat) : List Char :=
  ['(', 'f'] ++ ' ' :: (List.replicate count '1' ++ [')'])

theorem hasLongNumeral_callOnOnes {count : Nat} (h : Numeral.maxDigits < count) :
    HasLongNumeral (callOnOnes count) := by
  have hne : List.replicate count '1' ≠ [] := by
    rw [Ne, List.replicate_eq_nil_iff]
    omega
  have hdigits : ∀ c ∈ List.replicate count '1', c.isDigit := by
    intro c hc
    rw [List.eq_of_mem_replicate hc]
    decide
  have hs : Spells (List.replicate count '1') false (List.replicate count '1') := .plain hne hdigits
  refine ⟨_, ?_, false, _, hs, by simpa using h⟩
  rw [callOnOnes, sourceWords_append_blank _ _ (by decide),
    sourceWords_append_parenthesis _ _ (by decide),
    sourceWords_eq_singleton hs.isSeparator_eq_false hne]
  simp

theorem typedLines_callOnOnes (count : Nat) :
    typedLines (String.ofList (callOnOnes count)) = [String.ofList (callOnOnes count)] := by
  have hne : callOnOnes count ≠ [] := by simp [callOnOnes]
  have hline : '\n' ∉ callOnOnes count := by simp [callOnOnes]
  rw [typedLines, String.toList_ofList, Text.rawLines_eq_singleton hne hline, List.map_singleton]

/-- A numeral that is too long to be read ends the loop; it is not taken for a symbol, as shorter
numerals out of range are. -/
theorem run_not_isComplete_callOnOnes :
    ¬ (run ⟨"> ", .standard⟩ (String.ofList (callOnOnes 4301)) (.ofFrame .empty)).IsComplete
      ⟨"> ", .standard⟩ (typedLines (String.ofList (callOnOnes 4301))) (.ofFrame .empty) := by
  have hlong : HasLongNumeral (String.ofList (callOnOnes 4301)).toList := by
    rw [String.toList_ofList]
    exact hasLongNumeral_callOnOnes (by decide)
  rw [run_eq_loop, loop_isComplete_iff, Interpreter.forall_canAnswer_iff, typedLines_callOnOnes]
  intro h
  exact h.1 _ (mem_programs_of_hasLongNumeral hlong) hlong

end Repl

end DynLisp

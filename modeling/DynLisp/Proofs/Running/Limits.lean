import DynLisp.Proofs.Evaluation.Extension
import DynLisp.Repl

/-! # Running with more frames

A program that does not run out of frames runs the same with more of them. So does the interactive
loop, up to the first value that is nested too deeply to be printed. -/

namespace DynLisp

/-- The second outcome is the first one, or the first program ran out of frames and the second one
has noted the same records and perhaps more. -/
def Outcome.ExtendsTo (small large : Outcome) : Prop :=
  large = small ∨
    small.result = .error (.faulty .recursionLimit) ∧ small.records <+: large.records

variable {limit limit' : Nat}

namespace Interpreter

theorem runProgram_extendsTo (h : limit ≤ limit') (tracing : Bool) (program : List Value)
    (scope : Scope) :
    (runProgram ⟨limit, tracing⟩ program scope).ExtendsTo
      (runProgram ⟨limit', tracing⟩ program scope) := by
  by_cases hd : tracing && limit < (Shape.ofList program).depth
  · -- nothing is noted before the program has been written to the log
    refine .inr ?_
    simp [runProgram, hd]
  · have hd' : ¬ (tracing && limit' < (Shape.ofList program).depth) := by
      simp only [Bool.and_eq_true, decide_eq_true_eq, not_and, Nat.not_lt] at hd ⊢
      exact fun ht => Nat.le_trans (hd ht) h
    simp only [runProgram, hd, hd']
    rcases eval_extendsTo h (.list program) scope with heq | ⟨he, hc⟩
    · rw [heq]
      exact .inl rfl
    · refine .inr ⟨?_, ?_⟩
      · simp [he]
      · simpa using hc.map Record.called

theorem run_extendsTo (h : limit ≤ limit') (tracing : Bool) (source : String) (scope : Scope) :
    (run ⟨limit, tracing⟩ source scope).ExtendsTo (run ⟨limit', tracing⟩ source scope) := by
  unfold run
  cases Program.parse source with
  | error fault => exact .inl rfl
  | ok program => exact runProgram_extendsTo h tracing program scope

end Interpreter

namespace Repl

/-- The second turn is the first one, or the first program ran out of frames, or its value could not
be printed. -/
def Turn.ExtendsTo (small large : Turn) : Prop :=
  large = small ∨ .failed (.faulty .recursionLimit) ∈ small.records ∨
    small.output = "" ∧ small.next = .abort .tooDeep

theorem runLine_extendsTo (h : limit ≤ limit') (tracing : Bool) (source : String) (scope : Scope) :
    (runLine ⟨limit, tracing⟩ source scope).ExtendsTo (runLine ⟨limit', tracing⟩ source scope) := by
  rcases Interpreter.run_extendsTo h tracing source scope with heq | ⟨he, _⟩
  · simp only [runLine, heq]
    cases (Interpreter.run ⟨limit, tracing⟩ source scope).result with
    | error failure => exact .inl rfl
    | ok v =>
        by_cases hv : v.canDisplayIn limit
        · have hv' : v.canDisplayIn limit' := Value.canDisplayIn_mono h hv
          simp only [Interpreter.canDisplay, hv, hv', if_true]
          exact .inl rfl
        · refine .inr (.inr ?_)
          simp [Interpreter.canDisplay, hv]
  · refine .inr (.inl ?_)
    simp [runLine, he, Failure.isFatal]

theorem turn_extendsTo (h : limit ≤ limit') (tracing : Bool) (line : String) (scope : Scope) :
    (turn ⟨limit, tracing⟩ line scope).ExtendsTo (turn ⟨limit', tracing⟩ line scope) := by
  simp only [turn]
  split
  · exact .inl rfl
  · split
    · exact .inl rfl
    · exact runLine_extendsTo h tracing _ scope

variable (console : Console) (line : String) (lines : List String) (scope : Scope)

theorem records_subset_loop :
    (turn console.interpreter line scope).records ⊆
      (loop console (line :: lines) scope).records := by
  simp only [loop]
  cases (turn console.interpreter line scope).next with
  | more => exact List.subset_append_left _ _
  | stop | abort _ => exact List.Subset.refl _

theorem output_loop_eq_append :
    ∃ rest, (loop console (line :: lines) scope).output = console.prompt ++ rest := by
  simp only [loop]
  cases (turn console.interpreter line scope).next with
  | more => exact ⟨_, String.append_assoc⟩
  | stop | abort _ => exact ⟨_, rfl⟩

/-- If no line runs out of frames, the loop goes the same way with more frames until a value cannot
be printed. -/
theorem loop_extendsTo (h : limit ≤ limit') (tracing : Bool) (prompt : String)
    (hr : .failed (.faulty .recursionLimit) ∉
      (loop ⟨prompt, ⟨limit, tracing⟩⟩ lines scope).records) :
    loop ⟨prompt, ⟨limit', tracing⟩⟩ lines scope = loop ⟨prompt, ⟨limit, tracing⟩⟩ lines scope ∨
      (loop ⟨prompt, ⟨limit, tracing⟩⟩ lines scope).aborted = some .tooDeep ∧
        ∃ rest, (loop ⟨prompt, ⟨limit', tracing⟩⟩ lines scope).output =
          (loop ⟨prompt, ⟨limit, tracing⟩⟩ lines scope).output ++ rest := by
  induction lines generalizing scope with
  | nil => exact .inl rfl
  | cons line lines ih =>
      rcases turn_extendsTo h tracing line scope with heq | hf | ⟨ho, hn⟩
      · simp only [loop, heq] at hr ⊢
        cases hn : (turn ⟨limit, tracing⟩ line scope).next with
        | stop => exact .inl rfl
        | abort cause => exact .inl rfl
        | more =>
            simp only [hn, List.mem_append, not_or] at hr
            rcases ih _ hr.2 with hl | ⟨ha, rest, hout⟩
            · simp [hl]
            · refine .inr ⟨ha, rest, ?_⟩
              simp [hout, String.append_assoc]
      · exact absurd (records_subset_loop ⟨prompt, ⟨limit, tracing⟩⟩ line lines scope hf) hr
      · refine .inr ?_
        obtain ⟨rest, hp⟩ :=
          output_loop_eq_append ⟨prompt, ⟨limit', tracing⟩⟩ line lines scope
        rw [hp]
        simp only [loop, hn, ho, String.append_empty, true_and]
        exact ⟨rest, rfl⟩

end Repl

/-- With more frames a program that does not run out of them has the same outcome, and one that does
notes the same records first. The interactive loop goes the same way if no line runs out of frames,
up to a value that cannot be printed. -/
theorem more_frames_extend {limit limit' : Nat} (h : limit ≤ limit') (tracing : Bool) :
    (∀ source scope,
      let small := Interpreter.run ⟨limit, tracing⟩ source scope
      let large := Interpreter.run ⟨limit', tracing⟩ source scope
      (small.result ≠ .error (.faulty .recursionLimit) → large = small) ∧
        (small.result = .error (.faulty .recursionLimit) → small.records <+: large.records)) ∧
    ∀ prompt input scope,
      let small := Repl.run ⟨prompt, ⟨limit, tracing⟩⟩ input scope
      let large := Repl.run ⟨prompt, ⟨limit', tracing⟩⟩ input scope
      .failed (.faulty .recursionLimit) ∉ small.records →
        (small.aborted ≠ some .tooDeep → large = small) ∧
          (small.aborted = some .tooDeep → ∃ rest, large.output = small.output ++ rest) := by
  constructor
  · intro source scope
    rcases Interpreter.run_extendsTo h tracing source scope with heq | ⟨he, hp⟩
    · rw [heq]
      exact ⟨fun _ => rfl, fun _ => List.prefix_rfl⟩
    · exact ⟨fun hne => absurd he hne, fun _ => hp⟩
  · intro prompt input scope small large hr
    rcases Repl.loop_extendsTo _ scope h tracing prompt hr with heq | ⟨ha, hrest⟩
    · refine ⟨fun _ => heq, fun _ => ⟨"", ?_⟩⟩
      rw [String.append_empty]
      exact congrArg Repl.Transcript.output heq
    · exact ⟨fun hne => absurd ha hne, fun _ => hrest⟩

theorem more_frames_extend_sum :
    (Interpreter.run ⟨16, false⟩ "(+ 1 2)" (.ofFrame .empty)).result.isOk ∧
      Interpreter.run ⟨1000, false⟩ "(+ 1 2)" (.ofFrame .empty) =
        Interpreter.run ⟨16, false⟩ "(+ 1 2)" (.ofFrame .empty) := by
  have hok : (Interpreter.run ⟨16, false⟩ "(+ 1 2)" (.ofFrame .empty)).result.isOk := by
    decide +kernel
  refine ⟨hok, ((more_frames_extend (by decide) false).1 _ _).1 ?_⟩
  intro he
  simp [he, Except.isOk, Except.toBool] at hok

/-- Whether a record says that a program ran out of frames. -/
def Record.isExhaustion : Record → Bool
  | .failed (.faulty .recursionLimit) => true
  | _ => false

/-- A value that sixteen frames cannot print ends the loop, although no line has run out of
frames. -/
theorem more_frames_print_more :
    ¬ ∀ (limit limit' : Nat) (tracing : Bool) (prompt input : String) (scope : Scope),
      limit ≤ limit' →
      .failed (.faulty .recursionLimit) ∉
        (Repl.run ⟨prompt, ⟨limit, tracing⟩⟩ input scope).records →
      (Repl.run ⟨prompt, ⟨limit', tracing⟩⟩ input scope).output =
          (Repl.run ⟨prompt, ⟨limit, tracing⟩⟩ input scope).output ∧
        (Repl.run ⟨prompt, ⟨limit', tracing⟩⟩ input scope).scope =
          (Repl.run ⟨prompt, ⟨limit, tracing⟩⟩ input scope).scope := by
  intro h
  have hr : ((Repl.run ⟨"", ⟨16, false⟩⟩ "(define l (((((()))))))\n(1 (1 l))\n"
      (.ofFrame .empty)).records.any (·.isExhaustion)) = false := by
    decide +kernel
  have hout := (h 16 24 false "" "(define l (((((()))))))\n(1 (1 l))\n" (.ofFrame .empty)
    (by decide) (fun hm => by simpa [Record.isExhaustion] using List.any_eq_false.mp hr _ hm)).1
  revert hout
  decide +kernel

end DynLisp

import DynLisp.Proofs.Evaluation.Reports
import DynLisp.Proofs.Reading.Scanning
import DynLisp.Interpreter

/-! # How programs fail

A program fails while it is read, and then its scope is what it was, or while it is evaluated. It
cannot be read if it has a numeral of too many digits or if its parentheses do not balance; the
digits are looked at first. Evaluation fails in one of ten ways. -/

namespace DynLisp

/-- The kind of a failure as it is seen from outside: one that the language cannot report is an error
of its host. -/
def Failure.kind (failure : Failure) : String :=
  if failure.isFatal then "ValueError" else failure.label

/-- A program ends in a failure of the given kind. -/
def Outcome.FailsAs (outcome : Outcome) (kind : String) : Prop :=
  ∃ failure, outcome.result = .error failure ∧ failure.kind = kind

/-- A program that started in the given scope fails as its text demands, or in a way that evaluation
can fail. -/
structure Outcome.IsClassified (source : String) (scope : Scope) (outcome : Outcome) : Prop where
  /-- Too many digits are found whatever the parentheses are like. -/
  digits_iff : outcome.FailsAs "ValueError" ↔
    ∃ w count, .word w ∈ Lexeme.scan source.toList ∧ IsLongNumeral w count
  parentheses_iff : ¬ outcome.FailsAs "ValueError" →
    ∃ tokens, Token.tokenize source = .ok tokens ∧
      (outcome.FailsAs "OwoParseError" ↔ ¬ IsParenthesized tokens)
  message_eq : ∀ failure, outcome.result = .error failure → failure.kind = "OwoParseError" →
    ∃ cause, Program.parse source = .error cause ∧
      failure.message = "Parse error: " ++ cause.message
  scope_eq : outcome.FailsAs "ValueError" ∨ outcome.FailsAs "OwoParseError" →
    outcome.scope = scope
  kind_mem : ∀ kind, outcome.FailsAs kind →
    kind ∈ "ValueError" :: "OwoParseError" :: "OwoRecursionError" :: ruleLabels
  not_operator : ¬ outcome.FailsAs "OwoInvalidOperator"
  /-- The text has no empty word, which would be an error of the lexer. -/
  not_lexer : ¬ outcome.FailsAs "OwoLexError" ∧ Program.parse source ≠ .error (.word .empty)

theorem Outcome.failsAs_iff {outcome : Outcome} {failure : Failure} {kind : String}
    (h : outcome.result = .error failure) : outcome.FailsAs kind ↔ kind = failure.kind := by
  simp [FailsAs, h, eq_comm]

theorem Failure.kind_tooManyDigits (count : Nat) :
    (Failure.unreadable (.word (.tooManyDigits count))).kind = "ValueError" := rfl

theorem Failure.kind_unreadable {cause : ReadFault} (h : ∀ fault, cause ≠ .word fault) :
    (Failure.unreadable cause).kind = "OwoParseError" ∧
      (Failure.unreadable cause).message = "Parse error: " ++ cause.message := by
  cases cause with
  | word fault => exact absurd rfl (h fault)
  | noOpening | noClosing | trailing => exact ⟨rfl, rfl⟩

namespace Interpreter

variable {interpreter : Interpreter} {source : String} {scope : Scope}

theorem run_of_error {cause : ReadFault} (h : Program.parse source = .error cause) :
    interpreter.run source scope = ⟨.error (.unreadable cause), scope, []⟩ := by
  simp [run, h]

/-- A program that has been read fails as its evaluation does. -/
theorem kind_mem_of_failsAs {items : List Value} {kind : String}
    (h : Program.parse source = .ok items) (hf : (interpreter.run source scope).FailsAs kind) :
    kind ∈ "OwoRecursionError" :: ruleLabels := by
  obtain ⟨failure, hresult, rfl⟩ := hf
  simp only [run, h, runProgram] at hresult
  split at hresult
  · cases hresult
    exact List.mem_cons_self
  · cases hr : (eval interpreter.limit (.list items) scope).result with
    | ok v => simp [hr] at hresult
    | error fault =>
        obtain rfl : .faulty fault = failure := by simpa [hr] using hresult
        exact label_eval hr

theorem isClassified_of_digits {count : Nat} (hlong : HasLongNumeral source.toList)
    (h : Program.parse source = .error (.word (.tooManyDigits count))) :
    (interpreter.run source scope).IsClassified source scope := by
  rw [run_of_error h]
  have hfails : ∀ kind, Outcome.FailsAs
      ⟨.error (.unreadable (.word (.tooManyDigits count))), scope, []⟩ kind ↔
        kind = "ValueError" := by
    intro kind
    rw [Outcome.failsAs_iff rfl, Failure.kind_tooManyDigits]
  constructor
  · exact iff_of_true ((hfails _).mpr rfl) (exists_isLongNumeral_iff.mpr hlong)
  · exact fun hnot => absurd ((hfails _).mpr rfl) hnot
  · intro failure hf hk
    exact absurd ((hfails _).mp ⟨failure, hf, hk⟩) (by decide)
  · exact fun _ => rfl
  · intro kind hk
    rw [(hfails kind).mp hk]
    exact List.mem_cons_self
  · exact mt (hfails _).mp (by decide)
  · exact ⟨mt (hfails _).mp (by decide), by simp [h]⟩

theorem isClassified_of_parentheses {tokens : List Token} {cause : ReadFault}
    (hlong : ¬ HasLongNumeral source.toList) (hlex : Token.tokenize source = .ok tokens)
    (hnot : ¬ IsParenthesized tokens) (h : Program.parse source = .error cause)
    (hcause : ∀ fault, cause ≠ .word fault) :
    (interpreter.run source scope).IsClassified source scope := by
  obtain ⟨hkind, hmessage⟩ := Failure.kind_unreadable hcause
  rw [run_of_error h]
  have hfails : ∀ kind, Outcome.FailsAs ⟨.error (.unreadable cause), scope, []⟩ kind ↔
      kind = "OwoParseError" := by
    intro kind
    rw [Outcome.failsAs_iff rfl, hkind]
  constructor
  · exact iff_of_false (mt (hfails _).mp (by decide)) (mt exists_isLongNumeral_iff.mp hlong)
  · exact fun _ => ⟨tokens, hlex, iff_of_true ((hfails _).mpr rfl) hnot⟩
  · intro failure hf _
    cases hf
    exact ⟨cause, h, hmessage⟩
  · exact fun _ => rfl
  · intro kind hk
    rw [(hfails kind).mp hk]
    exact List.mem_cons_of_mem _ List.mem_cons_self
  · exact mt (hfails _).mp (by decide)
  · refine ⟨mt (hfails _).mp (by decide), ?_⟩
    rw [h]
    intro he
    exact hcause .empty (Except.error.inj he)

theorem isClassified_of_program {tokens : List Token} {items : List Value}
    (hlong : ¬ HasLongNumeral source.toList) (hlex : Token.tokenize source = .ok tokens)
    (hpar : IsParenthesized tokens) (h : Program.parse source = .ok items) :
    (interpreter.run source scope).IsClassified source scope := by
  have hnot : ∀ kind ∉ "OwoRecursionError" :: ruleLabels,
      ¬ (interpreter.run source scope).FailsAs kind :=
    fun kind hkind hf => hkind (kind_mem_of_failsAs h hf)
  constructor
  · exact iff_of_false (hnot _ (by decide)) (mt exists_isLongNumeral_iff.mp hlong)
  · exact fun _ => ⟨tokens, hlex, iff_of_false (hnot _ (by decide)) (not_not_intro hpar)⟩
  · intro failure hf hk
    exact absurd ⟨failure, hf, hk⟩ (hnot _ (by decide))
  · intro hf
    exact absurd hf (not_or_intro (hnot _ (by decide)) (hnot _ (by decide)))
  · intro kind hk
    exact List.mem_cons_of_mem _ (List.mem_cons_of_mem _ (kind_mem_of_failsAs h hk))
  · exact hnot _ (by decide)
  · exact ⟨hnot _ (by decide), by simp [h]⟩

theorem run_isClassified (interpreter : Interpreter) (source : String) (scope : Scope) :
    (interpreter.run source scope).IsClassified source scope := by
  rcases Program.parse_cases source with ⟨hlong, count, h⟩ | ⟨hlong, tokens, hlex, h⟩
  · exact isClassified_of_digits hlong h
  · rcases h with ⟨hnot, cause, h, hcause⟩ | ⟨hpar, items, h⟩
    · exact isClassified_of_parentheses hlong hlex hnot h hcause
    · exact isClassified_of_program hlong hlex hpar h

/-- The result of each of some programs is that of running it in the scope that those before it
leave. -/
theorem getElem?_runAll (interpreter : Interpreter) (before : List String) (source : String)
    (after : List String) (scope : Scope) :
    (interpreter.runAll (before ++ source :: after) scope).1[before.length]? =
      some (interpreter.run source (interpreter.runAll before scope).2).result := by
  induction before generalizing scope with
  | nil => simp [runAll]
  | cons first before ih => simpa [runAll] using ih (interpreter.run first scope).scope

/-- Of programs that run one after another, at first in a scope that binds nothing, each fails as its
text demands or in a way that evaluation can fail. -/
theorem runAll_isClassified (interpreter : Interpreter) (before : List String) (source : String)
    (after : List String) :
    let start := (interpreter.runAll before (.ofFrame .empty)).2
    let outcome := interpreter.run source start
    (interpreter.runAll (before ++ source :: after) (.ofFrame .empty)).1[before.length]? =
        some outcome.result ∧
      outcome.IsClassified source start :=
  ⟨getElem?_runAll interpreter before source after _, run_isClassified interpreter source _⟩

end Interpreter

end DynLisp

import DynLisp.Proofs.Reading.Refusal

/-! # Scanning a text

The tokens of a text are those that a scanner finds which reads its characters once, from left to
right: a separator ends the word before it, and a parenthesis is a token of its own. Hence a text is
tokenized in parts wherever it has a separator. -/

namespace DynLisp

/-- A piece of a source text that becomes one token. -/
inductive Lexeme where
  | opening
  | closing
  | word (cs : List Char)
  deriving Repr, DecidableEq

namespace Lexeme

/-- The word that the characters read since the last separator are, if there are any. They are given
with the last one first. -/
def ofRun (run : List Char) : List Lexeme :=
  if run = [] then [] else [.word run.reverse]

/-- What a separator is itself: a blank is nothing. -/
def ofSeparator (c : Char) : List Lexeme :=
  if c = '(' then [.opening] else if c = ')' then [.closing] else []

/-- Scans on when the characters of `run`, the last one first, have been read since the last
separator. -/
def scanFrom (run : List Char) : List Char → List Lexeme
  | [] => ofRun run
  | c :: cs =>
    if isSeparator c then ofRun run ++ (ofSeparator c ++ scanFrom [] cs)
    else scanFrom (c :: run) cs

/-- The lexemes of a text in order. -/
def scan (cs : List Char) : List Lexeme := scanFrom [] cs

/-- The token that a lexeme stands for. -/
def token : Lexeme → Except WordFault Token
  | .opening => .ok .lparen
  | .closing => .ok .rparen
  | .word cs => Token.ofWord cs

/-- The characters of a lexeme. -/
def chars : Lexeme → List Char
  | .opening => ['(']
  | .closing => [')']
  | .word cs => cs

theorem ofWord_chars (lexeme : Lexeme) : Token.ofWord lexeme.chars = lexeme.token := by
  cases lexeme <;> rfl

/-! ### What the scanner does at a separator -/

theorem scanFrom_append_separator (run as bs : List Char) {c : Char} (hc : isSeparator c = true) :
    scanFrom run (as ++ c :: bs) = scanFrom run as ++ (ofSeparator c ++ scan bs) := by
  -- the characters before the separator are scanned as if it were the end of the text
  induction as generalizing run with
  | nil => simp [scanFrom, scan, hc]
  | cons a as ih =>
      rw [List.cons_append, scanFrom, scanFrom]
      split
      · rw [ih, List.append_assoc, List.append_assoc]
      · exact ih (a :: run)

theorem scan_append_separator (as bs : List Char) {c : Char} (hc : isSeparator c = true) :
    scan (as ++ c :: bs) = scan as ++ (ofSeparator c ++ scan bs) :=
  scanFrom_append_separator [] as bs hc

theorem scanFrom_run {cs : List Char} (run : List Char) (h : ∀ c ∈ cs, isSeparator c = false) :
    scanFrom run cs = ofRun (cs.reverse ++ run) := by
  induction cs generalizing run with
  | nil => rfl
  | cons c cs ih =>
      obtain ⟨hc, hcs⟩ := List.forall_mem_cons.mp h
      rw [scanFrom, hc, if_neg (by decide), ih (c :: run) hcs]
      simp

/-- A run of characters that are no separators is one word, unless it is empty. -/
theorem scan_run {cs : List Char} (h : ∀ c ∈ cs, isSeparator c = false) :
    scan cs = if cs = [] then [] else [.word cs] := by
  rw [scan, scanFrom_run [] h, List.append_nil, ofRun, List.reverse_reverse]
  simp only [List.reverse_eq_nil_iff]

/-! ### The scanner and the words of a text -/

theorem map_chars_ofSeparator_blank {c : Char} (hc : Text.isBlank c = true) :
    (ofSeparator c).map chars = [] := by
  have hp := isParenthesis_eq_false_of_isBlank hc
  simp only [Token.isParenthesis, Bool.or_eq_false_iff, beq_eq_false_iff_ne] at hp
  simp [ofSeparator, hp]

theorem map_chars_ofSeparator_parenthesis {c : Char} (hc : Token.isParenthesis c = true) :
    (ofSeparator c).map chars = [[c]] := by
  rcases isParenthesis_iff.mp hc with rfl | rfl <;> rfl

/-- The scanner finds the words of a text. -/
theorem map_chars_scan (cs : List Char) : (scan cs).map chars = sourceWords cs := by
  have hrun : ∀ as : List Char, (∀ a ∈ as, isSeparator a = false) →
      (scan as).map chars = sourceWords as := by
    intro as has
    by_cases hne : as = []
    · subst hne
      rfl
    · rw [scan_run has, if_neg hne, sourceWords_eq_singleton has hne]
      rfl
  induction cs using separator_induction with
  | run cs hcs => exact hrun cs hcs
  | step as c bs has hc ih =>
      rw [scan_append_separator as bs hc, List.map_append, List.map_append, hrun as has, ih]
      rcases Bool.or_eq_true_iff.mp hc with hc | hc
      · rw [map_chars_ofSeparator_blank hc, sourceWords_append_blank as bs hc, List.nil_append]
      · rw [map_chars_ofSeparator_parenthesis hc, sourceWords_append_parenthesis as bs hc,
          List.singleton_append]

theorem mem_sourceWords_of_word_mem_scan {w cs : List Char} (h : .word w ∈ scan cs) :
    w ∈ sourceWords cs := by
  rw [← map_chars_scan]
  exact List.mem_map_of_mem h

end Lexeme

/-- A word is an integer with more digits than are ever read; `count` is their number. -/
def IsLongNumeral (w : List Char) (count : Nat) : Prop :=
  ∃ negative digits, Spells w negative digits ∧ digits.length = count ∧ Numeral.maxDigits < count

/-- The scanner finds an integer of too many digits exactly if one of the words of a text is so. -/
theorem exists_isLongNumeral_iff {cs : List Char} :
    (∃ w count, .word w ∈ Lexeme.scan cs ∧ IsLongNumeral w count) ↔ HasLongNumeral cs := by
  constructor
  · rintro ⟨w, count, hw, negative, digits, hs, rfl, hl⟩
    exact ⟨w, Lexeme.mem_sourceWords_of_word_mem_scan hw, negative, digits, hs, hl⟩
  · rintro ⟨w, hw, negative, digits, hs, hl⟩
    rw [← Lexeme.map_chars_scan] at hw
    obtain ⟨lexeme, hmem, rfl⟩ := List.mem_map.mp hw
    cases lexeme with
    | opening => exact absurd rfl hs.ne_paren.1
    | closing => exact absurd rfl hs.ne_paren.2
    | word w => exact ⟨w, digits.length, hmem, negative, digits, hs, rfl, hl⟩

namespace Token

open Lexeme (scan)

theorem lex_eq_scan (cs : List Char) : lex cs = (scan cs).mapM Lexeme.token := by
  rw [lex, ← Lexeme.map_chars_scan, List.mapM_map]
  exact congrArg (List.mapM · (scan cs)) (funext Lexeme.ofWord_chars)

/-- Of the lexemes of a text only an integer of too many digits is refused. -/
theorem token_eq_error_iff {cs : List Char} {lexeme : Lexeme} (h : lexeme ∈ scan cs)
    {fault : WordFault} :
    lexeme.token = .error fault ↔
      ∃ w count, lexeme = .word w ∧ IsLongNumeral w count ∧ fault = .tooManyDigits count := by
  cases lexeme with
  | opening | closing => simp [Lexeme.token]
  | word w =>
      have hne := Text.ne_nil_of_mem_words (Lexeme.mem_sourceWords_of_word_mem_scan h)
      rw [Lexeme.token, ofWord_eq_error_iff hne]
      constructor
      · rintro ⟨negative, digits, hs, hl, rfl⟩
        exact ⟨w, digits.length, rfl, ⟨negative, digits, hs, rfl, hl⟩, rfl⟩
      · rintro ⟨_, _, hw, ⟨negative, digits, hs, rfl, hl⟩, rfl⟩
        cases hw
        exact ⟨negative, digits, hs, hl, rfl⟩

/-- A text is refused for the first integer in it that has too many digits. -/
theorem lex_eq_error_iff {cs : List Char} {fault : WordFault} :
    lex cs = .error fault ↔
      ∃ before w after count, scan cs = before ++ .word w :: after ∧
        (∀ v n, .word v ∈ before → ¬ IsLongNumeral v n) ∧ IsLongNumeral w count ∧
        fault = .tooManyDigits count := by
  rw [lex_eq_scan, mapM_eq_error_iff]
  constructor
  · rintro ⟨before, lexeme, after, hscan, hbefore, hf⟩
    have hmem : lexeme ∈ scan cs := by simp [hscan]
    obtain ⟨w, count, rfl, hlong, rfl⟩ := (token_eq_error_iff hmem).mp hf
    refine ⟨before, w, after, count, hscan, ?_, hlong, rfl⟩
    intro v n hv hlong
    have hmem : .word v ∈ scan cs := by simp [hscan, hv]
    obtain ⟨token, ht⟩ := hbefore _ hv
    rw [(token_eq_error_iff hmem).mpr ⟨v, n, rfl, hlong, rfl⟩] at ht
    cases ht
  · rintro ⟨before, w, after, count, hscan, hbefore, hlong, rfl⟩
    have hmem : .word w ∈ scan cs := by simp [hscan]
    refine ⟨before, .word w, after, hscan, ?_, (token_eq_error_iff hmem).mpr ⟨w, _, rfl, hlong, rfl⟩⟩
    intro lexeme hl
    cases ht : lexeme.token with
    | ok token => exact ⟨token, rfl⟩
    | error fault =>
        have hmem : lexeme ∈ scan cs := by simp [hscan, hl]
        obtain ⟨v, n, rfl, hv, _⟩ := (token_eq_error_iff hmem).mp ht
        exact absurd hv (hbefore v n hl)

/-- The token that a separator is itself, if it is a parenthesis. -/
def ofSeparator (c : Char) : List Token :=
  if c = '(' then [.lparen] else if c = ')' then [.rparen] else []

theorem mapM_token_ofSeparator (c : Char) :
    (Lexeme.ofSeparator c).mapM Lexeme.token = .ok (ofSeparator c) := by
  unfold Lexeme.ofSeparator ofSeparator
  split
  · rfl
  · split <;> rfl

theorem lex_append_separator (as bs : List Char) {c : Char} (hc : isSeparator c = true) :
    lex (as ++ c :: bs) = (do
      let before ← lex as
      let after ← lex bs
      return before ++ (ofSeparator c ++ after)) := by
  simp only [lex_eq_scan, Lexeme.scan_append_separator as bs hc, List.mapM_append,
    mapM_token_ofSeparator]
  cases (scan as).mapM Lexeme.token <;> cases (scan bs).mapM Lexeme.token <;> rfl

/-- The tokens of a text are those of its lexemes, and it is refused for the first integer in it that
has too many digits. A separator parts it into two texts that are tokenized one after the other. -/
theorem tokenize_eq_scan :
    (∀ text, tokenize text = (scan text.toList).mapM Lexeme.token) ∧
    (∀ text fault, tokenize text = .error fault ↔
      ∃ before w after count, scan text.toList = before ++ .word w :: after ∧
        (∀ v n, .word v ∈ before → ¬ IsLongNumeral v n) ∧ IsLongNumeral w count ∧
        fault = .tooManyDigits count) ∧
    (∀ (a b : String) (c : Char), Text.isBlank c = true ∨ c = '(' ∨ c = ')' →
      tokenize (a ++ String.singleton c ++ b) = (do
        let before ← tokenize a
        let after ← tokenize b
        return before ++ (ofSeparator c ++ after))) := by
  refine ⟨fun text => lex_eq_scan text.toList, fun text fault => lex_eq_error_iff, ?_⟩
  intro a b c hc
  have hsep : isSeparator c = true := by
    rw [isSeparator, Bool.or_eq_true, isParenthesis_iff]
    exact hc
  have htext : (a ++ String.singleton c ++ b).toList = a.toList ++ c :: b.toList := by simp
  rw [tokenize_eq_lex, htext]
  exact lex_append_separator a.toList b.toList hsep

/-- A parenthesis between two words. -/
theorem tokenize_eq_scan_call :
    tokenize ("f" ++ String.singleton '(' ++ "+007") = .ok [.symbol "f", .lparen, .number 7] := by
  rw [tokenize_eq_scan.2.2 "f" "+007" '(' (by decide)]
  rfl

end Token

end DynLisp

import DynLisp.Program
import DynLisp.Proofs.Reading.Numerals
import DynLisp.Proofs.Reading.Trees
import DynLisp.Proofs.Reading.Words

/-! # Texts that are refused

The words of a text are all read before its parentheses are looked at, and the only word that cannot
be read is an integer of too many digits. -/

namespace DynLisp

/-- Some word of a text is an integer with more digits than are ever read. -/
def HasLongNumeral (cs : List Char) : Prop :=
  ∃ w ∈ sourceWords cs, ∃ negative digits,
    Spells w negative digits ∧ Numeral.maxDigits < digits.length

/-! ### The first step that fails -/

section Steps

variable {α β ε : Type} {f : α → Except ε β} {a : α} {as : List α} {cause : ε}

theorem mapM_cons_of_error (h : f a = .error cause) : (a :: as).mapM f = .error cause := by
  rw [List.mapM_cons, h]
  rfl

theorem mapM_cons_eq_error_iff {b : β} (h : f a = .ok b) :
    (a :: as).mapM f = .error cause ↔ as.mapM f = .error cause := by
  rw [List.mapM_cons, h]
  cases as.mapM f <;> simp [bind, Except.bind, pure, Except.pure]

/-- Steps in a row fail as the first of them does that fails. -/
theorem mapM_eq_error_iff :
    as.mapM f = .error cause ↔
      ∃ before a after, as = before ++ a :: after ∧ (∀ b ∈ before, ∃ c, f b = .ok c) ∧
        f a = .error cause := by
  constructor
  · intro h
    induction as with
    | nil => cases h
    | cons a as ih =>
        cases ha : f a with
        | error first =>
            obtain rfl := Except.error.inj ((mapM_cons_of_error ha).symm.trans h)
            exact ⟨[], a, as, rfl, by simp, ha⟩
        | ok b =>
            obtain ⟨before, a', after, rfl, hbefore, ha'⟩ := ih ((mapM_cons_eq_error_iff ha).mp h)
            exact ⟨a :: before, a', after, rfl, List.forall_mem_cons.mpr ⟨⟨b, ha⟩, hbefore⟩, ha'⟩
  · rintro ⟨before, a, after, rfl, hbefore, ha⟩
    induction before with
    | nil => exact mapM_cons_of_error ha
    | cons b before ih =>
        obtain ⟨⟨c, hc⟩, hrest⟩ := List.forall_mem_cons.mp hbefore
        exact (mapM_cons_eq_error_iff hc).mpr (ih hrest)

end Steps

namespace Token

/-- Of all words only an integer of too many digits is refused. -/
theorem ofWord_eq_error_iff {w : List Char} (hne : w ≠ []) {fault : WordFault} :
    ofWord w = .error fault ↔
      ∃ negative digits, Spells w negative digits ∧ Numeral.maxDigits < digits.length ∧
        fault = .tooManyDigits digits.length := by
  constructor
  · intro h
    have hs : ∃ negative digits, Spells w negative digits := by
      apply Classical.byContradiction
      intro hs
      simp only [not_exists] at hs
      by_cases hl : w = ['(']
      · subst hl
        cases h
      · by_cases hr : w = [')']
        · subst hr
          cases h
        · rw [ofWord_of_not_spells hne hl hr hs] at h
          cases h
    obtain ⟨negative, digits, hs⟩ := hs
    rw [ofWord_of_spells hs] at h
    split at h
    · exact ⟨negative, digits, hs, ‹_›, (Except.error.inj h).symm⟩
    · split at h <;> cases h
  · rintro ⟨negative, digits, hs, hl, rfl⟩
    rw [ofWord_of_spells hs, if_pos hl]

theorem lex_eq_error {cs : List Char} {fault : WordFault} (h : lex cs = .error fault) :
    HasLongNumeral cs ∧ ∃ count, fault = .tooManyDigits count := by
  obtain ⟨before, w, after, hws, _, hf⟩ := mapM_eq_error_iff.mp h
  have hw : w ∈ sourceWords cs := by simp [hws]
  obtain ⟨negative, digits, hs, hl, rfl⟩ :=
    (ofWord_eq_error_iff (Text.ne_nil_of_mem_words hw)).mp hf
  exact ⟨⟨w, hw, negative, digits, hs, hl⟩, digits.length, rfl⟩

theorem not_hasLongNumeral_of_lex {cs : List Char} {tokens : List Token}
    (h : lex cs = .ok tokens) : ¬ HasLongNumeral cs := by
  rintro ⟨w, hw, negative, digits, hs, hl⟩
  have hf := (ofWord_eq_error_iff hs.ne_nil).mpr ⟨negative, digits, hs, hl, rfl⟩
  obtain ⟨before, after, hws⟩ := List.append_of_mem hw
  -- whether the words before it are read or not, the whole text is not
  rw [lex, hws, List.mapM_append, List.mapM_cons, hf] at h
  cases hb : before.mapM ofWord <;> simp [hb, bind, Except.bind] at h

end Token

/-! ### Balanced parentheses -/

/-- Tokens in which every parenthesis has its counterpart. -/
inductive Balanced : List Token → Prop where
  | nil : Balanced []
  | number (n) {rest} (h : Balanced rest) : Balanced (.number n :: rest)
  | symbol (name) {rest} (h : Balanced rest) : Balanced (.symbol name :: rest)
  | list {inner rest} (hi : Balanced inner) (h : Balanced rest) :
      Balanced (.lparen :: (inner ++ .rparen :: rest))

/-- Tokens between two parentheses that belong together, with nothing before or after these. -/
def IsParenthesized (tokens : List Token) : Prop :=
  ∃ inner, Balanced inner ∧ tokens = .lparen :: (inner ++ [.rparen])

theorem Balanced.append {ts us : List Token} (h : Balanced ts) (h' : Balanced us) :
    Balanced (ts ++ us) := by
  induction h with
  | nil => exact h'
  | number n _ ih => exact .number n ih
  | symbol name _ ih => exact .symbol name ih
  | list hi _ _ ih => simpa using hi.list ih

theorem balanced_flattenAll {vs : List Value} (h : ∀ v ∈ vs, Balanced v.flatten) :
    Balanced (Value.flattenAll vs) := by
  induction vs with
  | nil => exact .nil
  | cons v vs ih =>
      obtain ⟨hv, hvs⟩ := List.forall_mem_cons.mp h
      exact hv.append (ih hvs)

theorem IsTree.balanced {v : Value} (h : IsTree v) : Balanced v.flatten := by
  induction h with
  | number n => exact .number n .nil
  | symbol name => exact .symbol name .nil
  | list _ ih => exact (balanced_flattenAll ih).list .nil

/-- Balanced tokens are those of some trees. -/
theorem Balanced.exists_trees {tokens : List Token} (h : Balanced tokens) :
    ∃ vs, (∀ v ∈ vs, IsTree v) ∧ Value.flattenAll vs = tokens := by
  induction h with
  | nil => exact ⟨[], by simp, rfl⟩
  | number n _ ih =>
      obtain ⟨vs, hvs, rfl⟩ := ih
      exact ⟨.number n :: vs, List.forall_mem_cons.mpr ⟨.number n, hvs⟩, rfl⟩
  | symbol name _ ih =>
      obtain ⟨vs, hvs, rfl⟩ := ih
      exact ⟨.symbol name :: vs, List.forall_mem_cons.mpr ⟨.symbol name, hvs⟩, rfl⟩
  | list _ _ ihi ih =>
      obtain ⟨items, hitems, rfl⟩ := ihi
      obtain ⟨vs, hvs, rfl⟩ := ih
      refine ⟨.list items :: vs, List.forall_mem_cons.mpr ⟨.list hitems, hvs⟩, ?_⟩
      simp [Value.flattenAll, Value.flatten]

namespace Program

theorem readWithin_eq_error {tokens : List Token} {elements : List Value}
    {outer : List (List Value)} {fault : ReadFault}
    (h : (readWithin tokens elements outer).result = .error fault) : fault = .noClosing := by
  fun_induction readWithin tokens elements outer with
  | case1 => exact (Except.error.inj h).symm
  | case3 => cases h
  | case2 _ _ _ ih | case4 _ _ _ _ ih | case5 _ _ _ _ ih | case6 _ _ _ _ ih => exact ih h

theorem readList_eq_error {tokens rest : List Token} {fault : ReadFault}
    (h : readList tokens = ⟨.error fault, rest⟩) : fault = .noOpening ∨ fault = .noClosing := by
  have hresult : (readList tokens).result = .error fault := by rw [h]
  unfold readList at hresult
  split at hresult
  · exact .inl (Except.error.inj hresult).symm
  · exact .inr (readWithin_eq_error hresult)
  · exact .inl (Except.error.inj hresult).symm

/-- No fault of the parentheses is blamed on a word. -/
theorem ofTokens_ne_word (tokens : List Token) (cause : WordFault) :
    ofTokens tokens ≠ .error (.word cause) := by
  rcases hr : readList tokens with ⟨result, rest⟩
  cases result with
  | error fault =>
      rw [ofTokens_of_error hr]
      rcases readList_eq_error hr with rfl | rfl <;> simp
  | ok items =>
      cases rest with
      | nil => simp [ofTokens_of_nil hr]
      | cons token rest => simp [ofTokens_of_cons hr]

/-- Tokens are read as a program exactly if they are one list in balanced parentheses. -/
theorem exists_ofTokens_eq_ok_iff {tokens : List Token} :
    (∃ items, ofTokens tokens = .ok items) ↔ IsParenthesized tokens := by
  simp only [ofTokens_eq_ok_iff]
  constructor
  · rintro ⟨items, ht, rfl⟩
    have hitems := isTree_list_iff.mp ht
    exact ⟨_, balanced_flattenAll fun v hv => (hitems v hv).balanced, rfl⟩
  · rintro ⟨inner, hinner, rfl⟩
    obtain ⟨items, hitems, rfl⟩ := hinner.exists_trees
    exact ⟨items, .list hitems, rfl⟩

/-- A text has too many digits to be read exactly if one of its words has. -/
theorem exists_parse_eq_tooManyDigits_iff {text : String} :
    (∃ count, parse text = .error (.word (.tooManyDigits count))) ↔
      HasLongNumeral text.toList := by
  rw [parse, Token.tokenize_eq_lex]
  cases hlex : Token.lex text.toList with
  | error fault =>
      obtain ⟨hlong, count, rfl⟩ := Token.lex_eq_error hlex
      exact ⟨fun _ => hlong, fun _ => ⟨count, rfl⟩⟩
  | ok tokens =>
      refine ⟨?_, fun hlong => absurd hlong (Token.not_hasLongNumeral_of_lex hlex)⟩
      rintro ⟨count, h⟩
      exact absurd h (ofTokens_ne_word tokens _)

/-- A text is refused for its digits, else for its parentheses, or it is read. -/
theorem parse_cases (text : String) :
    (HasLongNumeral text.toList ∧ ∃ count, parse text = .error (.word (.tooManyDigits count))) ∨
    (¬ HasLongNumeral text.toList ∧ ∃ tokens, Token.tokenize text = .ok tokens ∧
      ((¬ IsParenthesized tokens ∧
          ∃ cause, parse text = .error cause ∧ ∀ fault, cause ≠ .word fault) ∨
        (IsParenthesized tokens ∧ ∃ items, parse text = .ok items))) := by
  by_cases hlong : HasLongNumeral text.toList
  · exact .inl ⟨hlong, exists_parse_eq_tooManyDigits_iff.mpr hlong⟩
  · refine .inr ⟨hlong, ?_⟩
    cases hlex : Token.tokenize text with
    | error fault => exact absurd (Token.lex_eq_error hlex).1 hlong
    | ok tokens =>
        have hparse : parse text = ofTokens tokens := by simp [parse, hlex]
        refine ⟨tokens, rfl, ?_⟩
        rw [hparse, ← exists_ofTokens_eq_ok_iff]
        cases hread : ofTokens tokens with
        | ok items => exact .inr ⟨⟨items, rfl⟩, items, rfl⟩
        | error cause =>
            refine .inl ⟨by simp, cause, rfl, ?_⟩
            intro fault hcause
            exact ofTokens_ne_word tokens fault (hcause ▸ hread)

end Program

end DynLisp

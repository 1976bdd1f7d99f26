import DynLisp.Interpreter
import DynLisp.Proofs.Reading.Numerals
import DynLisp.Proofs.Reading.Trees
import DynLisp.Proofs.Reading.Words

/-! # Display and reading

The display of a program is source text for it. Reading gives exactly the trees whose numbers are in
range and whose names are words that are read as names, so displaying and reading are inverse on
these. Reading takes no frames but displaying does: a tree may be too deep to be displayed. -/

namespace DynLisp

/-- A name that can be written: no blank and no parenthesis parts it, and it is neither a number nor
a numeral too long to be read. -/
structure IsName (name : String) : Prop where
  ne_nil : name.toList ≠ []
  not_blank : ∀ c ∈ name.toList, Text.isBlank c = false
  not_parenthesis : ∀ c ∈ name.toList, c ≠ '(' ∧ c ≠ ')'
  not_number : ∀ negative digits, Spells name.toList negative digits →
    ¬ Number.InRange (spelledValue negative digits)
  not_long : ∀ negative digits, Spells name.toList negative digits →
    digits.length ≤ Numeral.maxDigits

/-- The trees that can be written. -/
inductive Readable : Value → Prop where
  | number {n} (h : Number.InRange n) : Readable (.number n)
  | symbol {name} (h : IsName name) : Readable (.symbol name)
  | list {items} (h : ∀ v ∈ items, Readable v) : Readable (.list items)

/-- The tokens that a text can have. -/
def Token.IsReadable : Token → Prop
  | .lparen | .rparen => True
  | .number n => Number.InRange n
  | .symbol name => IsName name

theorem Readable.isTree {v : Value} (h : Readable v) : IsTree v := by
  induction h with
  | number _ => exact .number _
  | symbol _ => exact .symbol _
  | list _ ih => exact .list ih

theorem mem_flattenAll {vs : List Value} {token : Token} {v : Value} (hv : v ∈ vs)
    (ht : token ∈ v.flatten) : token ∈ Value.flattenAll vs := by
  rw [Value.flattenAll_eq_flatMap]
  exact List.mem_flatMap.mpr ⟨v, hv, ht⟩

/-- A tree can be written if its tokens can. -/
theorem IsTree.readable {v : Value} (hv : IsTree v) (h : ∀ token ∈ v.flatten, token.IsReadable) :
    Readable v := by
  induction hv with
  | number n => exact .number (h (.number n) (by simp [Value.flatten]))
  | symbol name => exact .symbol (h (.symbol name) (by simp [Value.flatten]))
  | list _ ih =>
      refine .list fun v hv => ih v hv fun token ht => h token ?_
      simp [Value.flatten, mem_flattenAll hv ht]

/-! ### Words and names -/

theorem IsName.isSeparator_eq_false {name : String} (h : IsName name) :
    ∀ c ∈ name.toList, isSeparator c = false :=
  fun c hc => isSeparator_eq_false_iff.mpr ⟨h.not_blank c hc, h.not_parenthesis c hc⟩

theorem isSeparator_eq_false_of_isDigit {c : Char} (h : c.isDigit) : isSeparator c = false := by
  have hd : 48 ≤ c.toNat ∧ c.toNat ≤ 57 := Char.isDigit_iff_toNat.mp h
  refine isSeparator_eq_false_iff.mpr ⟨?_, ?_, ?_⟩
  · simp [Text.isBlank]
    omega
  · rintro rfl
    exact absurd h (by decide)
  · rintro rfl
    exact absurd h (by decide)

theorem Spells.isSeparator_eq_false {word digits : List Char} {negative : Bool}
    (h : Spells word negative digits) : ∀ c ∈ word, isSeparator c = false := by
  have hd : ∀ c ∈ digits, isSeparator c = false :=
    fun c hc => isSeparator_eq_false_of_isDigit (h.isDigit c hc)
  cases h with
  | plain _ _ => exact hd
  | plus _ _ => exact List.forall_mem_cons.mpr ⟨by decide, hd⟩
  | minus _ _ => exact List.forall_mem_cons.mpr ⟨by decide, hd⟩

/-- A name is read as a symbol. -/
theorem IsName.ofWord {name : String} (h : IsName name) :
    Token.ofWord name.toList = .ok (.symbol name) := by
  by_cases hs : ∃ negative digits, Spells name.toList negative digits
  · obtain ⟨negative, digits, hs⟩ := hs
    rw [Token.ofWord_of_spells hs, if_neg (Nat.not_lt.mpr (h.not_long _ _ hs)),
      if_neg (h.not_number _ _ hs), String.ofList_toList]
  · simp only [not_exists] at hs
    have hp := ne_parentheses h.isSeparator_eq_false
    rw [Token.ofWord_of_not_spells h.ne_nil hp.1 hp.2 hs, String.ofList_toList]

/-- A word is a name unless it spells a number, or an integer of too many digits. -/
theorem isName_ofList {w : List Char} (hne : w ≠ []) (h : ∀ c ∈ w, isSeparator c = false)
    (hs : ∀ negative digits, Spells w negative digits →
      ¬ Number.InRange (spelledValue negative digits) ∧ digits.length ≤ Numeral.maxDigits) :
    IsName (String.ofList w) := by
  constructor <;> rw [String.toList_ofList]
  · exact hne
  · exact fun c hc => (isSeparator_eq_false_iff.mp (h c hc)).1
  · exact fun c hc => (isSeparator_eq_false_iff.mp (h c hc)).2
  · exact fun negative digits hd => (hs negative digits hd).1
  · exact fun negative digits hd => (hs negative digits hd).2

theorem Spells.isName {w digits : List Char} {negative : Bool} (h : Spells w negative digits)
    (hr : ¬ Number.InRange (spelledValue negative digits))
    (hl : digits.length ≤ Numeral.maxDigits) : IsName (String.ofList w) := by
  refine isName_ofList h.ne_nil h.isSeparator_eq_false fun negative' digits' h' => ?_
  obtain ⟨rfl, rfl⟩ := h.unique h'
  exact ⟨hr, hl⟩

theorem Spells.exists_isDigit {w digits : List Char} {negative : Bool}
    (h : Spells w negative digits) : ∃ c ∈ w, c.isDigit := by
  cases h with
  | plain hne h =>
      obtain ⟨c, hc⟩ := List.exists_mem_of_ne_nil _ hne
      exact ⟨c, hc, h c hc⟩
  | plus hne h | minus hne h =>
      obtain ⟨c, hc⟩ := List.exists_mem_of_ne_nil _ hne
      exact ⟨c, List.mem_cons_of_mem _ hc, h c hc⟩

/-- A word without digits is a name. -/
theorem isName_of_not_isDigit {name : String} (hne : name.toList ≠ [])
    (h : name.toList.all fun c => !isSeparator c && !c.isDigit) : IsName name := by
  simp only [List.all_eq_true, Bool.and_eq_true, Bool.not_eq_true'] at h
  rw [← String.ofList_toList (s := name)]
  refine isName_ofList hne (fun c hc => (h c hc).1) fun negative digits hs => ?_
  obtain ⟨c, hc, hd⟩ := hs.exists_isDigit
  exact absurd hd (Bool.eq_false_iff.mp (h c hc).2)

/-- A word that is read is a number in range or a name. -/
theorem isReadable_of_ofWord {w : List Char} {token : Token} (hne : w ≠ [])
    (h : ∀ c ∈ w, isSeparator c = false) (hw : Token.ofWord w = .ok token) : token.IsReadable := by
  by_cases hs : ∃ negative digits, Spells w negative digits
  · obtain ⟨negative, digits, hs⟩ := hs
    rw [Token.ofWord_of_spells hs] at hw
    by_cases hl : Numeral.maxDigits < digits.length
    · simp [hl] at hw
    · by_cases hr : Number.InRange (spelledValue negative digits)
      · obtain rfl : .number (spelledValue negative digits) = token := by simpa [hl, hr] using hw
        exact hr
      · obtain rfl : .symbol (String.ofList w) = token := by simpa [hl, hr] using hw
        exact hs.isName hr (Nat.not_lt.mp hl)
  · simp only [not_exists] at hs
    have hp := ne_parentheses h
    rw [Token.ofWord_of_not_spells hne hp.1 hp.2 hs] at hw
    cases hw
    exact isName_ofList hne h fun negative digits hd => absurd hd (hs negative digits)

theorem isReadable_of_mem_tokenize {text : String} {tokens : List Token} {token : Token}
    (h : Token.tokenize text = .ok tokens) (ht : token ∈ tokens) : token.IsReadable := by
  obtain ⟨w, hw, hok⟩ := Token.exists_word_of_mem h ht
  rcases of_mem_sourceWords hw with rfl | rfl | ⟨hne, hs⟩
  · cases hok
    trivial
  · cases hok
    trivial
  · exact isReadable_of_ofWord hne hs hok

/-! ### Tokens of a display -/

/-- The display of a tree has the tokens of the tree. -/
theorem Readable.lex_display {v : Value} (h : Readable v) :
    Token.lex v.display.toList = .ok v.flatten := by
  induction h with
  | @number n h =>
      rw [Value.display, Numeral.toList_decimal]
      have hs := Numeral.spells_spell n
      exact Token.lex_word hs.ne_nil hs.isSeparator_eq_false (Token.ofWord_spell h)
  | symbol h => exact Token.lex_word h.ne_nil h.isSeparator_eq_false h.ofWord
  | @list items _ ih =>
      have hall := Token.lex_intercalate Value.display Value.flatten ih
      rw [Value.display, Value.displayAll_eq_map, Value.flatten, Value.flattenAll_eq_flatMap]
      exact Token.lex_enclosed hall

namespace Program

/-- A text is a program exactly if its tokens are those of a tree. -/
theorem parse_eq_ok_iff {text : String} {items : List Value} :
    parse text = .ok items ↔
      IsTree (.list items) ∧ Token.lex text.toList = .ok (Value.list items).flatten := by
  rw [parse, Token.tokenize_eq_lex]
  cases Token.lex text.toList with
  | error fault => simp
  | ok tokens => rw [ofTokens_eq_ok_iff, Except.ok.injEq, @eq_comm _ tokens]

theorem parse_display {items : List Value} (h : Readable (.list items)) :
    parse (Value.list items).display = .ok items :=
  parse_eq_ok_iff.mpr ⟨h.isTree, h.lex_display⟩

theorem readable_of_parse {text : String} {items : List Value} (h : parse text = .ok items) :
    Readable (.list items) := by
  obtain ⟨htree, hlex⟩ := parse_eq_ok_iff.mp h
  exact htree.readable fun token hm => isReadable_of_mem_tokenize hlex hm

end Program

/-! ### Frames for the display -/

/-- A value is displayed as the given text if there are enough frames, and not at all if there are
fewer. -/
def Value.HasText (v : Value) (text : String) : Prop :=
  ∃ frames, ∀ interpreter : Interpreter,
    interpreter.display? v = if frames ≤ interpreter.limit then some text else none

theorem Value.hasText_iff {v : Value} {text : String} : v.HasText text ↔ text = v.display := by
  constructor
  · rintro ⟨frames, h⟩
    have hlarge := h ⟨max frames v.displayFrames, false⟩
    rw [if_pos (Nat.le_max_left ..), Interpreter.display?, displayIn?_eq_ite,
      if_pos (Nat.le_max_right ..)] at hlarge
    exact (Option.some.inj hlarge).symm
  · rintro rfl
    exact ⟨v.displayFrames, fun interpreter => v.displayIn?_eq_ite interpreter.limit⟩

namespace Program

/-- Every tree that can be written has a text, and reading that text gives the tree. Reading gives no
other trees, so displaying what was read and reading it again changes nothing. -/
theorem parse_display_inverse :
    (∀ items, Readable (.list items) →
      ∃ text, (Value.list items).HasText text ∧ parse text = .ok items) ∧
    (∀ source items, parse source = .ok items → Readable (.list items)) ∧
    ∀ source items, parse source = .ok items →
      ∃ text, (Value.list items).HasText text ∧ parse text = parse source := by
  have hinverse : ∀ items, Readable (.list items) →
      ∃ text, (Value.list items).HasText text ∧ parse text = .ok items :=
    fun items h => ⟨_, Value.hasText_iff.mpr rfl, parse_display h⟩
  refine ⟨hinverse, fun source items h => readable_of_parse h, fun source items h => ?_⟩
  rw [h]
  exact hinverse items (readable_of_parse h)

/-- The least numeral that is too great for a number is a name. -/
theorem isName_overflow : IsName "9223372036854775808" := by
  have hs : Spells "9223372036854775808".toList false "9223372036854775808".toList :=
    .plain (by decide) (List.all_eq_true.mp (by decide))
  have hname := hs.isName (by decide) (by decide)
  rwa [String.ofList_toList] at hname

theorem parse_display_overflow :
    let items := [.number (-7), .symbol "9223372036854775808", .list []]
    Readable (.list items) ∧
      Interpreter.standard.display? (.list items) = some "(-7 9223372036854775808 ())" ∧
      parse "(-7 9223372036854775808 ())" = .ok items := by
  intro items
  have h : Readable (.list items) := by
    refine .list ?_
    simp only [items, List.forall_mem_cons]
    exact ⟨.number (by decide), .symbol isName_overflow, .list (by simp), by simp⟩
  have hdisplay : (Value.list items).display = "(-7 9223372036854775808 ())" := by
    decide +kernel
  obtain ⟨text, htext, hparse⟩ := parse_display_inverse.1 items h
  obtain rfl := Value.hasText_iff.mp htext
  rw [hdisplay] at hparse
  exact ⟨h, by decide +kernel, hparse⟩

end Program

/-! ### A tree that cannot be displayed -/

/-- Lists inside one another, `n` of them around the innermost one. -/
def Value.nested : Nat → Value
  | 0 => .list []
  | n + 1 => .list [nested n]

theorem Value.readable_nested (n : Nat) : Readable (nested n) := by
  induction n with
  | zero => exact .list (by simp)
  | succ n ih => exact .list (List.forall_mem_singleton.mpr ih)

theorem Value.depth_nested (n : Nat) : (nested n).depth = n + 1 := by
  induction n with
  | zero => rfl
  | succ n ih => simp [nested, depth, depthOfAll, ih]

/-- A thousand frames do not suffice to display every tree that can be written. -/
theorem Program.exists_readable_without_display :
    ¬ ∀ items, Readable (.list items) →
      ∃ text, Interpreter.standard.display? (.list items) = some text ∧
        parse text = .ok items := by
  intro h
  have hreadable : Readable (.list [Value.nested 1000]) := Value.readable_nested 1001
  obtain ⟨text, htext, _⟩ := h [Value.nested 1000] hreadable
  have hnone : Interpreter.standard.display? (Value.nested 1001) = none := by
    apply Value.displayIn?_of_le_depth
    rw [Value.depth_nested]
    decide
  exact absurd (hnone.symm.trans htext) (by simp)

end DynLisp

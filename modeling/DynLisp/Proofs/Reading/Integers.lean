import DynLisp.Proofs.Evaluation.Arithmetic
import DynLisp.Proofs.Reading.Numerals
import Mathlib.Tactic.MkIffOfInductiveProp
import Mathlib.Tactic.Ring

/-! # Words that are numbers

What digits stand for is a matter of their places. A word is read as a number exactly if it is an
optional sign and digits, no more of them than are ever read, and the integer that these stand for
fits in 64 bits. Neither zeros before the digits nor a plus sign make a difference, and the bounds of
the range are the same for every spelling. -/

namespace DynLisp

/-! ### Places -/

/-- The number that digits stand for: the sum of the digits, each times the power of ten that belongs
to its place. -/
def placeValue : List Char → Nat
  | [] => 0
  | c :: cs => (c.toNat - '0'.toNat) * 10 ^ cs.length + placeValue cs

/-- The integer that a sign and digits stand for. -/
def signedPlaceValue (negative : Bool) (digits : List Char) : Int :=
  if negative then -(placeValue digits : Int) else placeValue digits

/-- Digits that are read one by one shift what was read before them by a place each. -/
theorem ofDigitChars_eq_add_placeValue (digits : List Char) (init : Nat) :
    Nat.ofDigitChars 10 digits init = init * 10 ^ digits.length + placeValue digits := by
  induction digits generalizing init with
  | nil => simp [placeValue]
  | cons c cs ih =>
      rw [Nat.ofDigitChars_cons, ih, placeValue, List.length_cons]
      ring

theorem spelledValue_eq_signedPlaceValue (negative : Bool) (digits : List Char) :
    spelledValue negative digits = signedPlaceValue negative digits := by
  simp [spelledValue, signedPlaceValue, ofDigitChars_eq_add_placeValue]

theorem placeValue_toDigits (n : Nat) : placeValue (Nat.toDigits 10 n) = n := by
  have h : Nat.ofDigitChars 10 (Nat.toDigits 10 n) 0 = n := Nat.ofDigitChars_ten_toDigits
  rwa [ofDigitChars_eq_add_placeValue, Nat.zero_mul, Nat.zero_add] at h

theorem placeValue_zeros_append (zeros : Nat) (digits : List Char) :
    placeValue (List.replicate zeros '0' ++ digits) = placeValue digits := by
  induction zeros with
  | zero => rfl
  | succ zeros ih => simp [List.replicate_succ, placeValue, ih]

/-! ### Kinds of words -/

/-- A word is an optional sign and digits, no more of them than are ever read, and they stand for an
integer of 64 bits. -/
def SpellsNumber (word : List Char) (n : Int) : Prop :=
  ∃ negative digits, Spells word negative digits ∧ digits.length ≤ 4300 ∧
    signedPlaceValue negative digits = n ∧ -2 ^ 63 ≤ n ∧ n ≤ 2 ^ 63 - 1

/-- A word that is neither a parenthesis nor a number, nor an integer of too many digits. -/
structure IsOtherWord (word : List Char) : Prop where
  ne_lparen : word ≠ ['(']
  ne_rparen : word ≠ [')']
  not_long : ∀ negative digits, Spells word negative digits → digits.length ≤ 4300
  not_number : ∀ n, ¬ SpellsNumber word n

/-- What a word comes to, unless it is empty. -/
@[mk_iff]
inductive WordReading (word : List Char) : Except WordFault Token → Prop where
  | lparen (h : word = ['(']) : WordReading word (.ok .lparen)
  | rparen (h : word = [')']) : WordReading word (.ok .rparen)
  | long {negative digits} (hs : Spells word negative digits) (hd : 4300 < digits.length) :
      WordReading word (.error (.tooManyDigits digits.length))
  | number {n} (h : SpellsNumber word n) : WordReading word (.ok (.number n))
  | symbol (h : IsOtherWord word) : WordReading word (.ok (.symbol (String.ofList word)))

/-- Every word is of some kind. -/
theorem exists_wordReading (word : List Char) : ∃ result, WordReading word result := by
  by_cases hl : word = ['(']
  · exact ⟨_, .lparen hl⟩
  by_cases hr : word = [')']
  · exact ⟨_, .rparen hr⟩
  by_cases hlong : ∃ negative digits, Spells word negative digits ∧ 4300 < digits.length
  · obtain ⟨negative, digits, hs, hd⟩ := hlong
    exact ⟨_, .long hs hd⟩
  by_cases hn : ∃ n, SpellsNumber word n
  · obtain ⟨n, hn⟩ := hn
    exact ⟨_, .number hn⟩
  · refine ⟨_, .symbol ⟨hl, hr, fun negative digits hs => ?_, not_exists.mp hn⟩⟩
    exact Nat.not_lt.mp fun hd => hlong ⟨negative, digits, hs, hd⟩

/-- An integer that is short enough to be read is a number if it fits in 64 bits, and a symbol if
not. -/
theorem Token.ofWord_of_spells_short {word digits : List Char} {negative : Bool} {n : Int}
    (hs : Spells word negative digits) (hd : digits.length ≤ 4300)
    (hv : signedPlaceValue negative digits = n) :
    ofWord word =
      if -2 ^ 63 ≤ n ∧ n ≤ 2 ^ 63 - 1 then .ok (.number n)
      else .ok (.symbol (String.ofList word)) := by
  have hshort : ¬ Numeral.maxDigits < digits.length := Nat.not_lt.mpr hd
  rw [ofWord_of_spells hs, spelledValue_eq_signedPlaceValue, hv, if_neg hshort]
  exact if_congr (Number.inRange_iff n) rfl rfl

theorem IsOtherWord.ofWord {word : List Char} (h : IsOtherWord word) (hne : word ≠ []) :
    Token.ofWord word = .ok (.symbol (String.ofList word)) := by
  by_cases hs : ∃ negative digits, Spells word negative digits
  · obtain ⟨negative, digits, hs⟩ := hs
    have hd := h.not_long negative digits hs
    rw [Token.ofWord_of_spells_short hs hd rfl, if_neg]
    exact fun hn => h.not_number _ ⟨negative, digits, hs, hd, rfl, hn⟩
  · simp only [not_exists] at hs
    exact Token.ofWord_of_not_spells hne h.ne_lparen h.ne_rparen hs

theorem WordReading.ofWord {word : List Char} {result : Except WordFault Token}
    (h : WordReading word result) (hne : word ≠ []) : Token.ofWord word = result := by
  cases h with
  | lparen h => exact h ▸ rfl
  | rparen h => exact h ▸ rfl
  | long hs hd =>
      have hlong : Numeral.maxDigits < _ := hd
      rw [Token.ofWord_of_spells hs, if_pos hlong]
  | number h =>
      obtain ⟨negative, digits, hs, hd, hv, hn⟩ := h
      rw [Token.ofWord_of_spells_short hs hd hv, if_pos hn]
  | symbol h => exact h.ofWord hne

/-- A word is read as its kind demands. -/
theorem Token.ofWord_eq_iff {word : List Char} (hne : word ≠ []) {result : Except WordFault Token} :
    ofWord word = result ↔ WordReading word result := by
  refine ⟨fun h => ?_, fun h => h.ofWord hne⟩
  obtain ⟨result', h'⟩ := exists_wordReading word
  rw [← h, h'.ofWord hne]
  exact h'

/-! ### Zeros before the digits -/

/-- Some zeros and the digits of an integer. -/
def paddedDigits (n : Int) (zeros : Nat) : List Char :=
  List.replicate zeros '0' ++ Nat.toDigits 10 n.natAbs

/-- The spellings of an integer with some zeros before its digits. A plus sign may be left out, and
zero takes either sign. -/
inductive SpellsPadded (n : Int) (zeros : Nat) : List Char → Prop where
  | plain (h : 0 ≤ n) : SpellsPadded n zeros (paddedDigits n zeros)
  | plus (h : 0 ≤ n) : SpellsPadded n zeros ('+' :: paddedDigits n zeros)
  | minus (h : n ≤ 0) : SpellsPadded n zeros ('-' :: paddedDigits n zeros)

theorem paddedDigits_ne_nil (n : Int) (zeros : Nat) : paddedDigits n zeros ≠ [] := by
  simp [paddedDigits, Nat.toDigits_ne_nil]

theorem isDigit_paddedDigits (n : Int) (zeros : Nat) : ∀ c ∈ paddedDigits n zeros, c.isDigit := by
  intro c hc
  rcases List.mem_append.mp hc with hc | hc
  · obtain rfl := List.eq_of_mem_replicate hc
    decide
  · exact Nat.isDigit_of_mem_toDigits (by decide) (by decide) hc

theorem placeValue_paddedDigits (n : Int) (zeros : Nat) :
    placeValue (paddedDigits n zeros) = n.natAbs := by
  rw [paddedDigits, placeValue_zeros_append, placeValue_toDigits]

theorem SpellsPadded.exists_spells {n : Int} {zeros : Nat} {word : List Char}
    (h : SpellsPadded n zeros word) :
    ∃ negative, Spells word negative (paddedDigits n zeros) ∧
      signedPlaceValue negative (paddedDigits n zeros) = n := by
  have hne := paddedDigits_ne_nil n zeros
  have hd := isDigit_paddedDigits n zeros
  have hv := placeValue_paddedDigits n zeros
  have hplus : 0 ≤ n → signedPlaceValue false (paddedDigits n zeros) = n := by
    intro h
    simpa [signedPlaceValue, hv] using Int.natAbs_of_nonneg h
  have hminus : n ≤ 0 → signedPlaceValue true (paddedDigits n zeros) = n := by
    intro h
    simp only [signedPlaceValue, hv, if_true, Int.ofNat_natAbs_of_nonpos h, Int.neg_neg]
  cases h with
  | plain h => exact ⟨false, .plain hne hd, hplus h⟩
  | plus h => exact ⟨false, .plus hne hd, hplus h⟩
  | minus h => exact ⟨true, .minus hne hd, hminus h⟩

theorem SpellsPadded.ofWord {n : Int} {zeros : Nat} {word : List Char}
    (h : SpellsPadded n zeros word) (hd : (paddedDigits n zeros).length ≤ 4300) :
    Token.ofWord word =
      if -2 ^ 63 ≤ n ∧ n ≤ 2 ^ 63 - 1 then .ok (.number n)
      else .ok (.symbol (String.ofList word)) := by
  obtain ⟨negative, hs, hv⟩ := h.exists_spells
  exact Token.ofWord_of_spells_short hs hd hv

/-- The plain spelling of an integer has no zeros before its digits. -/
theorem spellsPadded_decimal (n : Int) : SpellsPadded n 0 (Numeral.decimal n).toList := by
  rw [Numeral.toList_decimal, Numeral.spell]
  split
  case isTrue hn => exact .minus (Int.le_of_lt hn)
  case isFalse hn => exact .plain (Int.not_lt.mp hn)

namespace Token

/-- A word that is not empty is a number exactly if it spells an integer of 64 bits, and what it is
otherwise can be seen from the word alone. So neither zeros before the digits nor a plus sign matter
to a number, its plain spelling is read as that number, and the plain spelling of any other integer
is a symbol. -/
theorem ofWord_decides_integers :
    (∀ word : List Char, word ≠ [] →
      (ofWord word = .ok .lparen ↔ word = ['(']) ∧
      (ofWord word = .ok .rparen ↔ word = [')']) ∧
      (∀ fault, ofWord word = .error fault ↔
        ∃ negative digits, Spells word negative digits ∧ 4300 < digits.length ∧
          fault = .tooManyDigits digits.length) ∧
      (∀ n, ofWord word = .ok (.number n) ↔ SpellsNumber word n) ∧
      (∀ name, ofWord word = .ok (.symbol name) ↔ IsOtherWord word ∧ name = String.ofList word)) ∧
    (∀ (n : Int) (zeros : Nat) (word : List Char), SpellsPadded n zeros word →
      (paddedDigits n zeros).length ≤ 4300 →
      (-2 ^ 63 ≤ n ∧ n ≤ 2 ^ 63 - 1 → ofWord word = .ok (.number n)) ∧
      (¬ (-2 ^ 63 ≤ n ∧ n ≤ 2 ^ 63 - 1) → ofWord word = .ok (.symbol (String.ofList word)))) ∧
    (∀ n : Int, -2 ^ 63 ≤ n ∧ n ≤ 2 ^ 63 - 1 →
      ofWord (Numeral.decimal n).toList = .ok (.number n)) ∧
    (∀ n : Int, ¬ (-2 ^ 63 ≤ n ∧ n ≤ 2 ^ 63 - 1) →
      (Nat.toDigits 10 n.natAbs).length ≤ 4300 →
      ofWord (Numeral.decimal n).toList = .ok (.symbol (Numeral.decimal n))) := by
  refine ⟨fun word hne => ?_, fun n zeros word h hd => ?_, fun n hn => ?_, fun n hn hd => ?_⟩
  · simp only [ofWord_eq_iff hne]
    -- each kind of word has a result of its own form, so the result tells the kind
    refine ⟨?_, ?_, ?_, ?_, ?_⟩ <;> simp [wordReading_iff]
  · rw [h.ofWord hd]
    exact ⟨fun hn => if_pos hn, fun hn => if_neg hn⟩
  · rw [Numeral.toList_decimal]
    exact ofWord_spell ((Number.inRange_iff n).mpr hn)
  · rw [(spellsPadded_decimal n).ofWord hd, if_neg hn, String.ofList_toList]

/-- The words at the bounds: one digit too many, though all are zeros, the least number behind
zeros, the greatest number, and the integer after it. -/
theorem ofWord_decides_integers_bounds :
    ofWord ('-' :: paddedDigits 0 4300) = .error (.tooManyDigits 4301) ∧
      ofWord "-0009223372036854775808".toList = .ok (.number (-2 ^ 63)) ∧
      ofWord "9223372036854775807".toList = .ok (.number (2 ^ 63 - 1)) ∧
      ofWord "9223372036854775808".toList = .ok (.symbol "9223372036854775808") := by
  obtain ⟨hkinds, hpadded, hnumber, hsymbol⟩ := ofWord_decides_integers
  refine ⟨?_, ?_, ?_, ?_⟩
  · have hs := Spells.minus (paddedDigits_ne_nil 0 4300) (isDigit_paddedDigits 0 4300)
    have hlen : (paddedDigits 0 4300).length = 4301 := by
      rw [paddedDigits, List.length_append, List.length_replicate]
      rfl
    exact ((hkinds _ hs.ne_nil).2.2.1 _).mpr ⟨true, _, hs, by rw [hlen]; decide, by rw [hlen]⟩
  · have hword : '-' :: paddedDigits (-2 ^ 63) 3 = "-0009223372036854775808".toList := by decide
    exact (hpadded _ 3 _ (hword ▸ .minus (by decide)) (by decide)).1 (by decide)
  · have hword : Numeral.decimal (2 ^ 63 - 1) = "9223372036854775807" := by decide
    exact hword ▸ hnumber (2 ^ 63 - 1) (by decide)
  · have hword : Numeral.decimal (2 ^ 63) = "9223372036854775808" := by decide
    exact hword ▸ hsymbol (2 ^ 63) (by decide) (by decide)

end Token

end DynLisp

import DynLisp.Token

/-! # Numerals

An integer is spelled by an optional sign and ASCII digits. What the reader makes of such a word is
decided by its number of digits and its value alone; the plain spelling of a number is read as that
number. -/

namespace DynLisp

/-- An optional sign and one or more ASCII digits. -/
inductive Spells : List Char → (negative : Bool) → (digits : List Char) → Prop where
  | plain {digits} (hne : digits ≠ []) (h : ∀ c ∈ digits, c.isDigit) : Spells digits false digits
  | plus {digits} (hne : digits ≠ []) (h : ∀ c ∈ digits, c.isDigit) :
      Spells ('+' :: digits) false digits
  | minus {digits} (hne : digits ≠ []) (h : ∀ c ∈ digits, c.isDigit) :
      Spells ('-' :: digits) true digits

/-- The integer that a sign and digits spell. -/
def spelledValue (negative : Bool) (digits : List Char) : Int :=
  if negative then -(Nat.ofDigitChars 10 digits 0 : Int) else Nat.ofDigitChars 10 digits 0

theorem Spells.isDigit {word digits : List Char} {negative : Bool}
    (h : Spells word negative digits) : ∀ c ∈ digits, c.isDigit := by
  cases h <;> assumption

theorem Spells.ne_nil {word digits : List Char} {negative : Bool}
    (h : Spells word negative digits) : word ≠ [] := by
  cases h with
  | plain hne _ => exact hne
  | plus | minus => simp

theorem Text.asciiDigit?_eq (c : Char) :
    asciiDigit? c = if c.isDigit then some (c.toNat - 48) else none := by
  by_cases h : c.isDigit
  · have hd : 48 ≤ c.toNat ∧ c.toNat ≤ 57 := Char.isDigit_iff_toNat.mp h
    simp only [asciiDigit?, digitFrom?, h, if_true]
    rw [if_pos ⟨hd.1, by omega⟩]
  · have hd : ¬ (48 ≤ c.toNat ∧ c.toNat ≤ 57) := mt Char.isDigit_iff_toNat.mpr h
    simp only [asciiDigit?, digitFrom?, h]
    rw [if_neg (by omega)]
    rfl

/-- Digits are read one by one, and a word with anything else is refused. -/
theorem mapM_asciiDigit?_eq_some_iff {cs : List Char} {ds : List Nat} :
    cs.mapM Text.asciiDigit? = some ds ↔
      (∀ c ∈ cs, c.isDigit) ∧ ds = cs.map (·.toNat - 48) := by
  induction cs generalizing ds with
  | nil => simp
  | cons c cs ih =>
      rw [List.mapM_cons, Text.asciiDigit?_eq]
      by_cases h : c.isDigit
      · simp only [h, if_true, Option.bind_eq_bind, Option.bind_some, Option.bind_eq_some_iff, ih,
          List.forall_mem_cons, true_and, List.map_cons]
        constructor
        · rintro ⟨_, ⟨hcs, rfl⟩, hds⟩
          exact ⟨hcs, (Option.some.inj hds).symm⟩
        · rintro ⟨hcs, rfl⟩
          exact ⟨_, ⟨hcs, rfl⟩, rfl⟩
      · simp [h]

theorem Numeral.magnitude_map (digits : List Char) :
    magnitude (digits.map (·.toNat - 48)) = Nat.ofDigitChars 10 digits 0 := by
  simp [magnitude, Nat.ofDigitChars_eq_foldl, List.foldl_map]

theorem Numeral.splitSign_of_isDigit {digits : List Char} (h : ∀ c ∈ digits, c.isDigit) :
    splitSign digits = (false, digits) := by
  unfold splitSign
  split
  · exact absurd (h '+' List.mem_cons_self) (by decide)
  · exact absurd (h '-' List.mem_cons_self) (by decide)
  · rfl

theorem spells_iff_splitSign {word digits : List Char} {negative : Bool} :
    Spells word negative digits ↔
      Numeral.splitSign word = (negative, digits) ∧ digits ≠ [] ∧ ∀ c ∈ digits, c.isDigit := by
  constructor
  · intro h
    cases h with
    | plain hne h => exact ⟨Numeral.splitSign_of_isDigit h, hne, h⟩
    | plus hne h => exact ⟨rfl, hne, h⟩
    | minus hne h => exact ⟨rfl, hne, h⟩
  · rintro ⟨hs, hne, h⟩
    unfold Numeral.splitSign at hs
    split at hs <;> obtain ⟨rfl, rfl⟩ := Prod.mk.inj hs
    · exact .plus hne h
    · exact .minus hne h
    · exact .plain hne h

/-- A word spells at most one integer. -/
theorem Spells.unique {word digits digits' : List Char} {negative negative' : Bool}
    (h : Spells word negative digits) (h' : Spells word negative' digits') :
    negative = negative' ∧ digits = digits' := by
  have hs := (spells_iff_splitSign.mp h).1
  have hs' := (spells_iff_splitSign.mp h').1
  exact Prod.mk.inj (hs.symm.trans hs')

/-- A numeral is read off a word exactly if the word spells it. -/
theorem Numeral.ofWord?_eq_some_iff {word : List Char} {numeral : Numeral} :
    ofWord? word = some numeral ↔
      ∃ digits, Spells word numeral.negative digits ∧
        numeral.digits = digits.map (·.toNat - 48) := by
  obtain ⟨negative, ds⟩ := numeral
  rcases hs : splitSign word with ⟨sign, rest⟩
  by_cases hne : rest = []
  · simp [ofWord?, spells_iff_splitSign, hs, hne]
  · have hr : ofWord? word = (rest.mapM Text.asciiDigit?).map (⟨sign, ·⟩) := by
      simp [ofWord?, hs, hne]
    simp only [hr, Option.map_eq_some_iff, mapM_asciiDigit?_eq_some_iff, spells_iff_splitSign, hs]
    constructor
    · rintro ⟨_, ⟨hd, rfl⟩, h⟩
      obtain ⟨rfl, rfl⟩ := Numeral.mk.inj h
      exact ⟨rest, ⟨rfl, hne, hd⟩, rfl⟩
    · rintro ⟨_, ⟨h, _, hd⟩, rfl⟩
      obtain ⟨rfl, rfl⟩ := Prod.mk.inj h
      exact ⟨_, ⟨hd, rfl⟩, rfl⟩

theorem Spells.ofWord? {word digits : List Char} {negative : Bool}
    (h : Spells word negative digits) :
    Numeral.ofWord? word = some ⟨negative, digits.map (·.toNat - 48)⟩ :=
  Numeral.ofWord?_eq_some_iff.mpr ⟨digits, h, rfl⟩

theorem Spells.ne_paren {word digits : List Char} {negative : Bool}
    (h : Spells word negative digits) : word ≠ ['('] ∧ word ≠ [')'] := by
  constructor <;> rintro rfl <;> cases h with
  | plain _ h => exact absurd (h _ List.mem_cons_self) (by decide)

/-- What a spelled integer is read as depends on its number of digits and its value. -/
theorem Token.ofWord_of_spells {word digits : List Char} {negative : Bool}
    (h : Spells word negative digits) :
    ofWord word =
      if Numeral.maxDigits < digits.length then .error (.tooManyDigits digits.length)
      else if Number.InRange (spelledValue negative digits) then
        .ok (.number (spelledValue negative digits))
      else .ok (.symbol (String.ofList word)) := by
  have hv : Numeral.value ⟨negative, digits.map (·.toNat - 48)⟩ = spelledValue negative digits := by
    simp only [Numeral.value, Numeral.magnitude_map, spelledValue]
  simp only [ofWord, h.ofWord?, h.ne_paren.1, h.ne_paren.2, h.ne_nil, if_false, hv,
    Numeral.IsReadable, List.length_map, Nat.not_le]

/-- A word that spells no integer is a symbol, unless it is a parenthesis. -/
theorem Token.ofWord_of_not_spells {word : List Char} (hne : word ≠ [])
    (hl : word ≠ ['(']) (hr : word ≠ [')'])
    (h : ∀ negative digits, ¬ Spells word negative digits) :
    ofWord word = .ok (.symbol (String.ofList word)) := by
  have hn : Numeral.ofWord? word = none := by
    refine Option.eq_none_iff_forall_not_mem.mpr fun numeral hm => ?_
    obtain ⟨digits, hs, _⟩ := Numeral.ofWord?_eq_some_iff.mp hm
    exact h _ _ hs
  simp [ofWord, hn, hne, hl, hr]

theorem Numeral.decimal_eq_toString (n : Int) : decimal n = toString n := by
  cases n with
  | ofNat m => rfl
  | negSucc m =>
      have hneg : Int.negSucc m < 0 := Int.negSucc_lt_zero m
      have hrepr : toString (Int.negSucc m) = "-" ++ Nat.repr (m + 1) := rfl
      simp [decimal, spell, hneg, hrepr, Nat.repr]

theorem Numeral.spells_spell (n : Int) :
    Spells (spell n) (decide (n < 0)) (Nat.toDigits 10 n.natAbs) := by
  have hd : ∀ c ∈ Nat.toDigits 10 n.natAbs, c.isDigit :=
    fun c hc => Nat.isDigit_of_mem_toDigits (by decide) (by decide) hc
  have hne : Nat.toDigits 10 n.natAbs ≠ [] := Nat.toDigits_ne_nil
  by_cases hn : n < 0
  · simpa [spell, hn] using Spells.minus hne hd
  · simpa [spell, hn] using Spells.plain hne hd

theorem spelledValue_toDigits (n : Int) :
    spelledValue (decide (n < 0)) (Nat.toDigits 10 n.natAbs) = n := by
  simp only [spelledValue, Nat.ofDigitChars_ten_toDigits, decide_eq_true_eq]
  split <;> omega

/-- A number in range can be written. -/
theorem Number.InRange.isWritable {n : Int} (h : InRange n) : Numeral.IsWritable n := by
  obtain ⟨hl, hg⟩ := h
  have hn : n.natAbs < 10 ^ 19 := by
    simp only [least, greatest] at hl hg
    omega
  refine (Nat.length_toDigits_le_iff (by decide) (by decide)).mpr (Nat.lt_of_lt_of_le hn ?_)
  exact Nat.pow_le_pow_right (by decide) (by decide)

/-- The plain spelling of a number in range is read as that number. -/
theorem Token.ofWord_spell {n : Int} (h : Number.InRange n) :
    ofWord (Numeral.spell n) = .ok (.number n) := by
  rw [ofWord_of_spells (Numeral.spells_spell n), spelledValue_toDigits,
    if_neg (Nat.not_lt.mpr h.isWritable), if_pos h]

end DynLisp

import DynLisp.Settings
import DynLisp.Proofs.Reading.Lines
import Mathlib.Data.Nat.Digits.Defs

/-! # The number of frames as a setting

A setting spells an integer by an optional sign and digits of any script, with single underscores
between them. What it asks for is decided by its stripped text alone, and the setting is accepted
exactly if that text spells a positive number in no more than 4300 digits. Only the refusal of a
text that spells no integer shows the blanks around it. -/

namespace DynLisp

/-! ### Digits in groups -/

/-- Digits of any script, the most significant first, with the worth of each. One underscore may
stand between two of them. -/
inductive DigitGroups : List Char → (digits : List Nat) → Prop where
  | last {c d} (hc : Text.decimalDigit? c = some d) : DigitGroups [c] [d]
  | digit {c d cs ds} (hc : Text.decimalDigit? c = some d) (h : DigitGroups cs ds) :
      DigitGroups (c :: cs) (d :: ds)
  | underscore {c d cs ds} (hc : Text.decimalDigit? c = some d) (h : DigitGroups cs ds) :
      DigitGroups (c :: '_' :: cs) (d :: ds)

theorem DigitGroups.exists_cons {cs : List Char} {ds : List Nat} (h : DigitGroups cs ds) :
    ∃ c rest d, cs = c :: rest ∧ Text.decimalDigit? c = some d := by
  cases h with
  | last hc => exact ⟨_, _, _, rfl, hc⟩
  | digit hc _ => exact ⟨_, _, _, rfl, hc⟩
  | underscore hc _ => exact ⟨_, _, _, rfl, hc⟩

theorem Text.ne_of_decimalDigit? {c c' : Char} {d : Nat} (hc : decimalDigit? c = some d)
    (hc' : decimalDigit? c' = none) : c ≠ c' := by
  intro h
  rw [h, hc'] at hc
  cases hc

theorem Text.decimalDigit?_underscore : decimalDigit? '_' = none := by
  decide

namespace Numeral

variable {c c' : Char} {cs : List Char} {ds : List Nat}

theorem groupedDigits?_underscore_cons (cs : List Char) : groupedDigits? ('_' :: cs) = none := by
  simp [groupedDigits?, List.splitOn, List.splitOnP_cons_eq_if_modifyHead]

theorem groupedDigits?_singleton (hc : c ≠ '_') :
    groupedDigits? [c] = (Text.decimalDigit? c).map ([·]) := by
  have hs : [c].splitOn '_' = [[c]] := List.splitOn_eq_singleton (by simpa using hc.symm)
  cases hd : Text.decimalDigit? c <;> simp [groupedDigits?, hs, hd]

/-- A character before the digits of `cs` that starts no empty group is read before them. -/
theorem groupedDigits?_eq_bind {word : List Char}
    (he : (word.splitOn '_').any (·.isEmpty) = (cs.splitOn '_').any (·.isEmpty))
    (hf : (word.splitOn '_').flatten = c :: (cs.splitOn '_').flatten) :
    groupedDigits? word =
      (Text.decimalDigit? c).bind fun d => (groupedDigits? cs).map (d :: ·) := by
  simp only [groupedDigits?, he, hf, List.mapM_cons]
  by_cases hany : (cs.splitOn '_').any (·.isEmpty)
  · simp [hany]
  · simp [hany, Option.map_eq_bind]

theorem groupedDigits?_cons_underscore (hc : c ≠ '_') (cs : List Char) :
    groupedDigits? (c :: '_' :: cs) =
      (Text.decimalDigit? c).bind fun d => (groupedDigits? cs).map (d :: ·) := by
  have hmem : '_' ∉ [c] := by simpa using hc.symm
  have hs : (c :: '_' :: cs).splitOn '_' = [c] :: cs.splitOn '_' :=
    List.splitOn_append_cons_self_of_not_mem hmem cs
  exact groupedDigits?_eq_bind (by simp [hs]) (by simp [hs])

theorem groupedDigits?_cons_cons (hc : c ≠ '_') (hc' : c' ≠ '_') (cs : List Char) :
    groupedDigits? (c :: c' :: cs) =
      (Text.decimalDigit? c).bind fun d => (groupedDigits? (c' :: cs)).map (d :: ·) := by
  obtain ⟨group, groups, hg⟩ := List.exists_cons_of_ne_nil (List.splitOn_ne_nil '_' cs)
  have hs' : (c' :: cs).splitOn '_' = (c' :: group) :: groups := by
    simp only [List.splitOn] at hg ⊢
    simp [List.splitOnP_cons_eq_if_modifyHead, hg, hc']
  have hs : (c :: c' :: cs).splitOn '_' = (c :: c' :: group) :: groups := by
    simp only [List.splitOn] at hs' ⊢
    rw [List.splitOnP_cons_eq_if_modifyHead, hs']
    simp [hc]
  exact groupedDigits?_eq_bind (by simp [hs, hs']) (by simp [hs, hs'])

end Numeral

theorem DigitGroups.groupedDigits? {cs : List Char} {ds : List Nat} (h : DigitGroups cs ds) :
    Numeral.groupedDigits? cs = some ds := by
  induction h with
  | last hc =>
      have hu := Text.ne_of_decimalDigit? hc Text.decimalDigit?_underscore
      simp [Numeral.groupedDigits?_singleton hu, hc]
  | digit hc h ih =>
      obtain ⟨c', rest, d', rfl, hc'⟩ := h.exists_cons
      have hu := Text.ne_of_decimalDigit? hc Text.decimalDigit?_underscore
      have hu' := Text.ne_of_decimalDigit? hc' Text.decimalDigit?_underscore
      simp [Numeral.groupedDigits?_cons_cons hu hu', hc, ih]
  | underscore hc _ ih =>
      have hu := Text.ne_of_decimalDigit? hc Text.decimalDigit?_underscore
      simp [Numeral.groupedDigits?_cons_underscore hu, hc, ih]

theorem digitGroups_of_groupedDigits? :
    ∀ {cs : List Char} {ds : List Nat}, Numeral.groupedDigits? cs = some ds → DigitGroups cs ds
  | [], _, h => by simp [Numeral.groupedDigits?] at h
  | [c], ds, h => by
      by_cases hu : c = '_'
      · simp [hu, Numeral.groupedDigits?_underscore_cons] at h
      · rw [Numeral.groupedDigits?_singleton hu, Option.map_eq_some_iff] at h
        obtain ⟨d, hc, rfl⟩ := h
        exact .last hc
  | c :: c' :: cs, ds, h => by
      by_cases hu : c = '_'
      · simp [hu, Numeral.groupedDigits?_underscore_cons] at h
      by_cases hu' : c' = '_'
      · rw [hu', Numeral.groupedDigits?_cons_underscore hu, Option.bind_eq_some_iff] at h
        obtain ⟨d, hc, h⟩ := h
        obtain ⟨rest, hr, rfl⟩ := Option.map_eq_some_iff.mp h
        exact hu' ▸ .underscore hc (digitGroups_of_groupedDigits? hr)
      · rw [Numeral.groupedDigits?_cons_cons hu hu', Option.bind_eq_some_iff] at h
        obtain ⟨d, hc, h⟩ := h
        obtain ⟨rest, hr, rfl⟩ := Option.map_eq_some_iff.mp h
        exact .digit hc (digitGroups_of_groupedDigits? hr)

/-! ### Signed integers -/

/-- An optional sign and digits in groups spell an integer. -/
inductive SpellsGrouped : List Char → (digits : List Nat) → Int → Prop where
  | plain {cs ds} (h : DigitGroups cs ds) : SpellsGrouped cs ds (Nat.ofDigits 10 ds.reverse : Nat)
  | plus {cs ds} (h : DigitGroups cs ds) :
      SpellsGrouped ('+' :: cs) ds (Nat.ofDigits 10 ds.reverse : Nat)
  | minus {cs ds} (h : DigitGroups cs ds) :
      SpellsGrouped ('-' :: cs) ds (-(Nat.ofDigits 10 ds.reverse : Nat))

namespace Numeral

theorem magnitude_eq_ofDigits (ds : List Nat) : magnitude ds = Nat.ofDigits 10 ds.reverse := by
  simp [magnitude, Nat.ofDigits_eq_foldr, List.foldr_reverse, Nat.add_comm]

theorem splitSign_of_digitGroups {cs : List Char} {ds : List Nat} (h : DigitGroups cs ds) :
    splitSign cs = (false, cs) := by
  obtain ⟨c, rest, d, rfl, hc⟩ := h.exists_cons
  have hplus := Text.ne_of_decimalDigit? hc (show Text.decimalDigit? '+' = none by decide)
  have hminus := Text.ne_of_decimalDigit? hc (show Text.decimalDigit? '-' = none by decide)
  unfold splitSign
  split <;> simp_all

end Numeral

theorem SpellsGrouped.ofGrouped? {word : List Char} {ds : List Nat} {n : Int}
    (h : SpellsGrouped word ds n) :
    ∃ negative, Numeral.ofGrouped? word = some ⟨negative, ds⟩ ∧
      Numeral.value ⟨negative, ds⟩ = n := by
  cases h with
  | plain h =>
      refine ⟨false, ?_, ?_⟩
      · simp [Numeral.ofGrouped?, Numeral.splitSign_of_digitGroups h, h.groupedDigits?]
      · simp [Numeral.value, Numeral.magnitude_eq_ofDigits]
  | plus h =>
      refine ⟨false, ?_, ?_⟩
      · simp [Numeral.ofGrouped?, Numeral.splitSign, h.groupedDigits?]
      · simp [Numeral.value, Numeral.magnitude_eq_ofDigits]
  | minus h =>
      refine ⟨true, ?_, ?_⟩
      · simp [Numeral.ofGrouped?, Numeral.splitSign, h.groupedDigits?]
      · simp [Numeral.value, Numeral.magnitude_eq_ofDigits]

theorem spellsGrouped_of_ofGrouped? {word : List Char} {numeral : Numeral}
    (h : Numeral.ofGrouped? word = some numeral) :
    SpellsGrouped word numeral.digits numeral.value := by
  obtain ⟨negative, ds⟩ := numeral
  rcases hs : Numeral.splitSign word with ⟨sign, rest⟩
  simp only [Numeral.ofGrouped?, hs, Option.map_eq_some_iff] at h
  obtain ⟨_, hd, h⟩ := h
  obtain ⟨rfl, rfl⟩ := Numeral.mk.inj h
  have hg := digitGroups_of_groupedDigits? hd
  unfold Numeral.splitSign at hs
  split at hs <;> obtain ⟨rfl, rfl⟩ := Prod.mk.inj hs <;>
    simp only [Numeral.value, Numeral.magnitude_eq_ofDigits, if_true, Bool.false_eq_true, if_false]
  · exact .plus hg
  · exact .minus hg
  · exact .plain hg

/-! ### Blanks around a spelled integer -/

namespace Text

/-- No digit of any script is a blank. -/
theorem isBlank_eq_false_of_decimalDigit? {c : Char} {d : Nat} (h : decimalDigit? c = some d) :
    isBlank c = false := by
  -- The runs of ten digits keep clear of the blanks, which lie below U+0021, at U+0085, U+00A0 and
  -- U+1680, and from U+2000 to U+3000.
  have hruns : ∀ base ∈ zeroDigits, (0x20 < base ∧ base + 10 ≤ 0x85) ∨
      (0xA0 < base ∧ base + 10 ≤ 0x1680) ∨ (0x1680 < base ∧ base + 10 ≤ 0x2000) ∨
      0x3000 < base := by decide
  obtain ⟨base, hb, hd⟩ := List.exists_of_findSome?_eq_some h
  have hrun := hruns base hb
  have hc : base ≤ c.toNat ∧ c.toNat < base + 10 := by
    unfold digitFrom? at hd
    split at hd
    · assumption
    · cases hd
  simp only [isBlank, Bool.or_eq_false_iff, Bool.and_eq_false_iff, decide_eq_false_iff_not,
    beq_eq_false_iff_ne]
  omega

theorem strip_append_blanks (cs : List Char) {after : List Char}
    (h : ∀ c ∈ after, isBlank c = true) : strip (cs ++ after) = strip cs := by
  induction after generalizing cs with
  | nil => rw [List.append_nil]
  | cons c after ih =>
      obtain ⟨hc, hafter⟩ := List.forall_mem_cons.mp h
      rw [List.append_cons, ih _ hafter, strip_append_blank cs hc]

theorem strip_blanks_append {before : List Char} (h : ∀ c ∈ before, isBlank c = true)
    (cs : List Char) : strip (before ++ cs) = strip cs := by
  rw [strip, strip, List.dropWhile_append_of_pos h]

theorem strip_eq_self {cs : List Char} (h : ∀ c ∈ cs, isBlank c = false) : strip cs = cs := by
  have hdrop : ∀ l : List Char, (∀ c ∈ l, isBlank c = false) → l.dropWhile isBlank = l := by
    intro l hl
    cases l with
    | nil => rfl
    | cons c l => simp [hl c List.mem_cons_self]
  rw [strip, hdrop cs h, hdrop cs.reverse (by simpa using h), List.reverse_reverse]

end Text

theorem DigitGroups.isBlank {cs : List Char} {ds : List Nat} (h : DigitGroups cs ds) :
    ∀ c ∈ cs, Text.isBlank c = false := by
  induction h with
  | last hc => simpa using Text.isBlank_eq_false_of_decimalDigit? hc
  | digit hc _ ih =>
      exact List.forall_mem_cons.mpr ⟨Text.isBlank_eq_false_of_decimalDigit? hc, ih⟩
  | underscore hc _ ih =>
      exact List.forall_mem_cons.mpr ⟨Text.isBlank_eq_false_of_decimalDigit? hc,
        List.forall_mem_cons.mpr ⟨by decide, ih⟩⟩

theorem SpellsGrouped.isBlank {word : List Char} {ds : List Nat} {n : Int}
    (h : SpellsGrouped word ds n) : ∀ c ∈ word, Text.isBlank c = false := by
  cases h with
  | plain h => exact h.isBlank
  | plus h => exact List.forall_mem_cons.mpr ⟨by decide, h.isBlank⟩
  | minus h => exact List.forall_mem_cons.mpr ⟨by decide, h.isBlank⟩

theorem SpellsGrouped.ne_nil {word : List Char} {ds : List Nat} {n : Int}
    (h : SpellsGrouped word ds n) : word ≠ [] := by
  cases h with
  | plain h =>
      obtain ⟨c, rest, d, rfl, _⟩ := h.exists_cons
      exact List.cons_ne_nil c rest
  | plus | minus => exact List.cons_ne_nil _ _

/-- The blanks around a spelled integer are all that stripping takes away. -/
theorem SpellsGrouped.strip {word before after : List Char} {ds : List Nat} {n : Int}
    (h : SpellsGrouped word ds n) (hb : ∀ c ∈ before, Text.isBlank c = true)
    (ha : ∀ c ∈ after, Text.isBlank c = true) : Text.strip (before ++ word ++ after) = word := by
  rw [Text.strip_append_blanks _ ha, Text.strip_blanks_append hb, Text.strip_eq_self h.isBlank]

/-! ### What a setting asks for -/

/-- What a text, if there is one, asks for: a number of frames, none, or a refusal with its
message. -/
inductive LimitSetting : Option String → Except String (Option Nat) → Prop where
  | absent : LimitSetting none (.ok none)
  | blank {raw} (h : Text.strip raw.toList = []) : LimitSetting (some raw) (.ok none)
  | limit {raw ds} {n : Nat} (hs : SpellsGrouped (Text.strip raw.toList) ds n)
      (hd : ds.length ≤ 4300) (hn : 0 < n) : LimitSetting (some raw) (.ok (some n))
  | notPositive {raw ds} {n : Int} (hs : SpellsGrouped (Text.strip raw.toList) ds n)
      (hd : ds.length ≤ 4300) (hn : n ≤ 0) :
      LimitSetting (some raw) (.error ("OWO_RECURSION_LIMIT must be positive, got " ++ toString n))
  | notInteger {raw} (hne : Text.strip raw.toList ≠ [])
      (hs : ∀ ds n, SpellsGrouped (Text.strip raw.toList) ds n → 4300 < ds.length) :
      LimitSetting (some raw)
        (.error ("OWO_RECURSION_LIMIT must be an integer, got " ++ Text.quoted raw))

theorem exists_limitSetting (raw? : Option String) : ∃ result, LimitSetting raw? result := by
  cases raw? with
  | none => exact ⟨_, .absent⟩
  | some raw =>
      by_cases hb : Text.strip raw.toList = []
      · exact ⟨_, .blank hb⟩
      by_cases hs : ∃ ds n, SpellsGrouped (Text.strip raw.toList) ds n ∧ ds.length ≤ 4300
      · obtain ⟨ds, n, hs, hd⟩ := hs
        by_cases hn : n ≤ 0
        · exact ⟨_, .notPositive hs hd hn⟩
        · obtain ⟨k, rfl⟩ := Int.eq_ofNat_of_zero_le (by omega : 0 ≤ n)
          exact ⟨_, .limit hs hd (by omega)⟩
      · refine ⟨_, .notInteger hb fun ds n h => ?_⟩
        by_contra hd
        exact hs ⟨ds, n, h, by omega⟩

namespace Settings

variable {raw : String} {ds : List Nat} {n : Int}

theorem limitOf_of_blank (h : Text.strip raw.toList = []) : limitOf raw = .ok none := by
  simp [limitOf, h]

theorem limitOf_of_spellsGrouped (hs : SpellsGrouped (Text.strip raw.toList) ds n)
    (hd : ds.length ≤ 4300) :
    limitOf raw = if n ≤ 0 then .error (.notPositive n) else .ok (some n.toNat) := by
  obtain ⟨negative, hg, hv⟩ := hs.ofGrouped?
  have hr : Numeral.IsReadable ⟨negative, ds⟩ := hd
  unfold limitOf
  split
  next hb => exact absurd hb hs.ne_nil
  next => simp only [hg, hr, hv, not_true, if_false]

theorem limitOf_of_not_spellsGrouped (hne : Text.strip raw.toList ≠ [])
    (hs : ∀ ds n, SpellsGrouped (Text.strip raw.toList) ds n → 4300 < ds.length) :
    limitOf raw = .error (.notInteger raw) := by
  unfold limitOf
  split
  next hb => exact absurd hb hne
  next =>
      cases hg : Numeral.ofGrouped? (Text.strip raw.toList) with
      | none => rfl
      | some numeral =>
          have hr : ¬ numeral.IsReadable :=
            Nat.not_le.mpr (hs _ _ (spellsGrouped_of_ofGrouped? hg))
          simp only [hr, not_false_eq_true, if_true]

end Settings

theorem LimitSetting.recursionLimit {vars : Variables} {result : Except String (Option Nat)}
    (h : LimitSetting vars.recursionLimit result) :
    (Settings.recursionLimit vars).mapError LimitFault.message = result := by
  unfold Settings.recursionLimit
  generalize vars.recursionLimit = raw? at h
  cases h with
  | absent => rfl
  | blank h => simp only [Settings.limitOf_of_blank h, Except.mapError]
  | limit hs hd hn =>
      have hpos : ¬ (_ : Int) ≤ 0 := Int.not_le.mpr (Int.natCast_pos.mpr hn)
      simp only [Settings.limitOf_of_spellsGrouped hs hd, hpos, if_false, Except.mapError,
        Int.toNat_natCast]
  | notPositive hs hd hn =>
      rw [← Numeral.decimal_eq_toString]
      simp only [Settings.limitOf_of_spellsGrouped hs hd, hn, if_true]
      rfl
  | notInteger hne hs =>
      simp only [Settings.limitOf_of_not_spellsGrouped hne hs]
      rfl

/-- The rules for a setting describe what is made of it, and leave no setting out. -/
theorem mapError_recursionLimit_eq_iff (vars : Variables) (result : Except String (Option Nat)) :
    (Settings.recursionLimit vars).mapError LimitFault.message = result ↔
      LimitSetting vars.recursionLimit result := by
  refine ⟨fun h => ?_, LimitSetting.recursionLimit⟩
  obtain ⟨result', h'⟩ := exists_limitSetting vars.recursionLimit
  rw [← h, h'.recursionLimit]
  exact h'

theorem limitSetting_of_recursionLimit_eq_ok {vars : Variables} {limit : Option Nat}
    (h : Settings.recursionLimit vars = .ok limit) : LimitSetting vars.recursionLimit (.ok limit) :=
  (mapError_recursionLimit_eq_iff vars _).mp (by rw [h, Except.mapError])

/-- No number of frames is set exactly if there is no text or a blank one. -/
theorem recursionLimit_eq_ok_none_iff (vars : Variables) :
    Settings.recursionLimit vars = .ok none ↔
      ∀ raw ∈ vars.recursionLimit, Text.strip raw.toList = [] := by
  constructor
  · intro h raw hraw
    have hl := limitSetting_of_recursionLimit_eq_ok h
    rw [hraw] at hl
    cases hl with
    | blank hb => exact hb
  · intro h
    unfold Settings.recursionLimit
    cases hv : vars.recursionLimit with
    | none => rfl
    | some raw => exact Settings.limitOf_of_blank (h raw hv)

theorem recursionLimit_pos {vars : Variables} {n : Nat}
    (h : Settings.recursionLimit vars = .ok (some n)) : 0 < n := by
  have hl := limitSetting_of_recursionLimit_eq_ok h
  generalize vars.recursionLimit = raw? at hl
  cases hl with
  | limit _ _ hn => exact hn

/-! ### Padding -/

/-- A setting asks for the integer that it spells, however it spells it and whatever blanks stand
around it. -/
theorem Settings.limitOf_eq_of_spellsGrouped {word word' before after : List Char}
    {ds ds' : List Nat} {n : Int} (hs : SpellsGrouped word ds n) (hs' : SpellsGrouped word' ds' n)
    (hd : ds.length ≤ 4300) (hd' : ds'.length ≤ 4300)
    (hb : ∀ c ∈ before, Text.isBlank c = true) (ha : ∀ c ∈ after, Text.isBlank c = true) :
    limitOf (String.ofList (before ++ word' ++ after)) = limitOf (String.ofList word) := by
  have hw : Text.strip (String.ofList word).toList = word := by
    rw [String.toList_ofList, Text.strip_eq_self hs.isBlank]
  have hw' : Text.strip (String.ofList (before ++ word' ++ after)).toList = word' := by
    rw [String.toList_ofList, hs'.strip hb ha]
  rw [limitOf_of_spellsGrouped (hw'.symm ▸ hs') hd', limitOf_of_spellsGrouped (hw.symm ▸ hs) hd]

/-- Zeros in front of the digits of a number do not change it. -/
theorem ofDigits_reverse_zeros_append (zeros : Nat) (ds : List Nat) :
    Nat.ofDigits 10 (List.replicate zeros 0 ++ ds).reverse = Nat.ofDigits 10 ds.reverse := by
  rw [List.reverse_append, List.reverse_replicate, Nat.ofDigits_append_replicate_zero]

/-- The number of frames is set exactly as the rules for settings say, so a number that is set is
positive, and neither blanks, a plus sign, leading zeros, underscores nor the script of the digits
make a difference to it. -/
theorem recursionLimit_follows_limitSetting :
    (∀ vars result, (Settings.recursionLimit vars).mapError LimitFault.message = result ↔
      LimitSetting vars.recursionLimit result) ∧
    (∀ vars, Settings.recursionLimit vars = .ok none ↔
      ∀ raw ∈ vars.recursionLimit, Text.strip raw.toList = []) ∧
    (∀ vars n, Settings.recursionLimit vars = .ok (some n) → 0 < n) ∧
    ∀ (before after cs cs' : List Char) (ds : List Nat) (zeros : Nat),
      (∀ c ∈ before, Text.isBlank c = true) → (∀ c ∈ after, Text.isBlank c = true) →
      DigitGroups cs ds → DigitGroups cs' (List.replicate zeros 0 ++ ds) →
      zeros + ds.length ≤ 4300 →
      Settings.limitOf (String.ofList (before ++ cs' ++ after)) =
          Settings.limitOf (String.ofList cs) ∧
        Settings.limitOf (String.ofList (before ++ '+' :: cs' ++ after)) =
          Settings.limitOf (String.ofList cs) ∧
        Settings.limitOf (String.ofList (before ++ '-' :: cs' ++ after)) =
          Settings.limitOf (String.ofList ('-' :: cs)) := by
  refine ⟨mapError_recursionLimit_eq_iff, recursionLimit_eq_ok_none_iff,
    fun _ _ => recursionLimit_pos, ?_⟩
  intro before after cs cs' ds zeros hb ha h h' hd
  have hlen : ds.length ≤ 4300 := Nat.le_trans (Nat.le_add_left _ _) hd
  have hlen' : (List.replicate zeros 0 ++ ds).length ≤ 4300 := by simpa using hd
  have hval := ofDigits_reverse_zeros_append zeros ds
  refine ⟨?_, ?_, ?_⟩
  · exact Settings.limitOf_eq_of_spellsGrouped (.plain h) (hval ▸ .plain h') hlen hlen' hb ha
  · exact Settings.limitOf_eq_of_spellsGrouped (.plain h) (hval ▸ .plus h') hlen hlen' hb ha
  · exact Settings.limitOf_eq_of_spellsGrouped (.minus h) (hval ▸ .minus h') hlen hlen' hb ha

theorem recursionLimit_follows_limitSetting_padded :
    (Settings.recursionLimit ⟨none, some " +0_٣2\n", none⟩).mapError LimitFault.message =
        .ok (some 32) ∧
      (Settings.recursionLimit ⟨none, some "32", none⟩ = .ok (some 32) ∧ 0 < 32) ∧
      Settings.limitOf " +0_٣2\n" = Settings.limitOf "32" := by
  have hg : DigitGroups ['3', '2'] [3, 2] := .digit (by decide) (.last (by decide))
  have hg' : DigitGroups ['0', '_', '٣', '2'] [0, 3, 2] :=
    .underscore (by decide) (.digit (by decide) (.last (by decide)))
  have hs : Text.strip " +0_٣2\n".toList = ['+', '0', '_', '٣', '2'] := by decide
  have hl : SpellsGrouped (Text.strip " +0_٣2\n".toList) [0, 3, 2] (32 : Nat) := hs ▸ .plus hg'
  have hplain : Settings.recursionLimit ⟨none, some "32", none⟩ = .ok (some 32) := by
    decide +kernel
  obtain ⟨hrules, -, hpos, hpad⟩ := recursionLimit_follows_limitSetting
  refine ⟨?_, ⟨hplain, hpos _ _ hplain⟩, ?_⟩
  · exact (hrules _ _).mpr (.limit hl (by decide) (by decide))
  · have hspace : ∀ c ∈ [' '], Text.isBlank c = true := List.forall_mem_singleton.mpr rfl
    have hfeed : ∀ c ∈ ['\n'], Text.isBlank c = true := List.forall_mem_singleton.mpr rfl
    exact (hpad _ _ _ _ [3, 2] 1 hspace hfeed hg hg' (by decide)).2.1

end DynLisp

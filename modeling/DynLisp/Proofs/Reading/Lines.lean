import DynLisp.Proofs.Reading.RoundTrip

/-! # Lines of an input

An input is parted into lines at its line feeds and nowhere else. A line has the same words with the
blanks at its ends as without them, so the line feed that ends it and the blanks typed around a
program make no difference to the program. -/

namespace DynLisp

namespace Text

/-! ### Lines with and without their line feeds -/

/-- The lines of a text, each with the line feed that ends it. The last one may lack it. -/
def rawLines : List Char → List (List Char)
  | [] => []
  | c :: rest =>
    if c = '\n' then [c] :: rawLines rest
    else match rawLines rest with
      | [] => [[c]]
      | line :: lines => (c :: line) :: lines

theorem rawLines_append {as : List Char} (h : '\n' ∉ as) (bs : List Char) :
    rawLines (as ++ '\n' :: bs) = (as ++ ['\n']) :: rawLines bs := by
  induction as with
  | nil => simp [rawLines]
  | cons a as ih =>
      simp only [List.mem_cons, not_or] at h
      rw [List.cons_append, rawLines, if_neg (Ne.symm h.1), ih h.2]
      rfl

theorem rawLines_eq_singleton {as : List Char} (hne : as ≠ []) (h : '\n' ∉ as) :
    rawLines as = [as] := by
  induction as with
  | nil => exact absurd rfl hne
  | cons a as ih =>
      simp only [List.mem_cons, not_or] at h
      rw [rawLines, if_neg (Ne.symm h.1)]
      by_cases has : as = []
      · simp [has, rawLines]
      · rw [ih has h.2]

theorem lines_append {as : List Char} (h : '\n' ∉ as) (bs : List Char) :
    lines (as ++ '\n' :: bs) = as :: lines bs := by
  have hlast : (as :: bs.splitOn '\n').getLast? = (bs.splitOn '\n').getLast? :=
    List.getLast?_cons_of_ne_nil (List.splitOn_ne_nil _ _)
  simp only [lines, List.splitOn_append_cons_self_of_not_mem h, hlast]
  split
  · exact List.dropLast_cons_of_ne_nil (List.splitOn_ne_nil _ _)
  · rfl

theorem lines_eq_singleton {as : List Char} (hne : as ≠ []) (h : '\n' ∉ as) :
    lines as = [as] := by
  simp [lines, List.splitOn_eq_singleton h, hne]

/-- Induction on a text by its lines. -/
theorem line_induction {P : List Char → Prop} (nil : P [])
    (last : ∀ as, as ≠ [] → '\n' ∉ as → P as)
    (step : ∀ as bs, '\n' ∉ as → P bs → P (as ++ '\n' :: bs)) (cs : List Char) : P cs := by
  by_cases h : '\n' ∈ cs
  · obtain ⟨as, bs, hcs, has⟩ := List.eq_append_cons_of_mem h
    have hlt : bs.length < cs.length := by
      simp only [hcs, List.length_append, List.length_cons]
      omega
    rw [hcs]
    exact step as bs has (line_induction nil last step bs)
  · by_cases hne : cs = []
    · exact hne ▸ nil
    · exact last cs hne h
termination_by cs.length

theorem strip_append_blank (cs : List Char) {c : Char} (hc : isBlank c = true) :
    strip (cs ++ [c]) = strip cs := by
  unfold strip
  rw [List.dropWhile_append]
  by_cases he : (cs.dropWhile isBlank).isEmpty
  · rw [if_pos he, List.isEmpty_iff.mp he, List.dropWhile_cons_of_pos hc, List.dropWhile_nil]
  · simp [he, hc]

/-- The lines of a text are the same without the blanks at their ends, whether the line feeds belong
to them or not. -/
theorem map_strip_rawLines (cs : List Char) : (rawLines cs).map strip = (lines cs).map strip := by
  induction cs using line_induction with
  | nil => rfl
  | last as hne h => rw [rawLines_eq_singleton hne h, lines_eq_singleton hne h]
  | step as bs h ih =>
      rw [rawLines_append h, lines_append h, List.map_cons, List.map_cons, ih,
        strip_append_blank as (by decide)]

/-- A text is its stripped text with blanks around it. -/
theorem exists_blanks_strip (cs : List Char) :
    ∃ before after, cs = before ++ strip cs ++ after ∧
      (∀ c ∈ before, isBlank c = true) ∧ ∀ c ∈ after, isBlank c = true := by
  have hfront := List.takeWhile_append_dropWhile (p := isBlank) (l := cs)
  have hback := List.takeWhile_append_dropWhile (p := isBlank) (l := (cs.dropWhile isBlank).reverse)
  refine ⟨cs.takeWhile isBlank, ((cs.dropWhile isBlank).reverse.takeWhile isBlank).reverse,
    ?_, ?_, ?_⟩
  · rw [List.append_assoc, strip, ← List.reverse_append, hback, List.reverse_reverse, hfront]
  · exact List.all_eq_true.mp List.all_takeWhile
  · intro c hc
    exact List.all_eq_true.mp List.all_takeWhile c (List.mem_reverse.mp hc)

end Text

theorem sourceWords_blanks_append {as : List Char} (h : ∀ a ∈ as, Text.isBlank a = true)
    (bs : List Char) : sourceWords (as ++ bs) = sourceWords bs := by
  induction as with
  | nil => rfl
  | cons a as ih =>
      obtain ⟨ha, has⟩ := List.forall_mem_cons.mp h
      have hsplit := sourceWords_append_blank [] (as ++ bs) ha
      rw [List.cons_append, ← ih has]
      simpa using hsplit

theorem sourceWords_append_blanks (as : List Char) {bs : List Char}
    (h : ∀ b ∈ bs, Text.isBlank b = true) : sourceWords (as ++ bs) = sourceWords as := by
  cases bs with
  | nil => rw [List.append_nil]
  | cons b bs =>
      obtain ⟨hb, hbs⟩ := List.forall_mem_cons.mp h
      have hnone := sourceWords_blanks_append hbs []
      rw [sourceWords_append_blank as bs hb]
      simpa using hnone

/-- The blanks at the ends of a text part no words. -/
theorem sourceWords_strip (cs : List Char) : sourceWords (Text.strip cs) = sourceWords cs := by
  obtain ⟨before, after, hcs, hbefore, hafter⟩ := Text.exists_blanks_strip cs
  calc sourceWords (Text.strip cs)
      = sourceWords (before ++ Text.strip cs) := (sourceWords_blanks_append hbefore _).symm
    _ = sourceWords (before ++ Text.strip cs ++ after) := (sourceWords_append_blanks _ hafter).symm
    _ = sourceWords cs := by rw [← hcs]

/-! ### Programs on one line -/

theorem mem_toList_intercalate {texts : List String} {c : Char}
    (h : c ∈ (" ".intercalate texts).toList) : c = ' ' ∨ ∃ text ∈ texts, c ∈ text.toList := by
  induction texts with
  | nil => simp at h
  | cons text texts ih =>
      cases texts with
      | nil => exact .inr ⟨text, List.mem_cons_self, by simpa using h⟩
      | cons next texts =>
          rw [String.intercalate_cons_cons, String.toList_append, String.toList_append,
            List.mem_append, List.mem_append] at h
          rcases h with (h | h) | h
          · exact .inr ⟨text, List.mem_cons_self, h⟩
          · exact .inl (by simpa using h)
          · refine (ih h).imp_right ?_
            rintro ⟨other, hmem, hc⟩
            exact ⟨other, List.mem_cons_of_mem _ hmem, hc⟩

/-- The display of a tree has no line feed in it. -/
theorem Readable.newline_not_mem_display {v : Value} (h : Readable v) :
    '\n' ∉ v.display.toList := by
  have hword : ∀ w : List Char, (∀ c ∈ w, isSeparator c = false) → '\n' ∉ w :=
    fun w hw hmem => absurd (hw _ hmem) (by decide)
  induction h with
  | @number n h =>
      rw [Value.display, Numeral.toList_decimal]
      exact hword _ (Numeral.spells_spell n).isSeparator_eq_false
  | symbol h => exact hword _ h.isSeparator_eq_false
  | @list items _ ih =>
      intro hmem
      simp only [Value.display, Value.listText, Value.displayAll_eq_map, String.toList_append,
        List.mem_append] at hmem
      rcases hmem with (hmem | hmem) | hmem
      · simp at hmem
      · rcases mem_toList_intercalate hmem with hc | ⟨text, htext, hc⟩
        · simp at hc
        · obtain ⟨v, hv, rfl⟩ := List.mem_map.mp htext
          exact ih v hv hc
      · simp at hmem

theorem Program.parse_strip (text : String) :
    parse (String.ofList (Text.strip text.toList)) = parse text := by
  simp only [parse, Token.tokenize_eq_lex, Token.lex, String.toList_ofList, sourceWords_strip]

end DynLisp

import DynLisp.Token

/-! # Words of a source text

Blanks and parentheses part a source text into words, and a parenthesis is a word of its own. Every
text is a run of other characters, or such a run, a separator and a shorter text: what the words of
these are decides what the words of any text are. -/

namespace DynLisp

def isSeparator (c : Char) : Bool := Text.isBlank c || Token.isParenthesis c

/-- The words of a source text. -/
def sourceWords (cs : List Char) : List (List Char) :=
  Text.words (cs.flatMap Token.pad)

/-- Induction on a text by its separators. -/
theorem separator_induction {P : List Char → Prop}
    (run : ∀ cs, (∀ c ∈ cs, isSeparator c = false) → P cs)
    (step : ∀ as c bs, (∀ a ∈ as, isSeparator a = false) → isSeparator c = true → P bs →
      P (as ++ c :: bs)) (cs : List Char) : P cs := by
  cases h : cs.find? isSeparator with
  | none => exact run cs (by simpa using List.find?_eq_none.mp h)
  | some c =>
      obtain ⟨hc, as, bs, hcs, has⟩ := List.find?_eq_some_iff_append.mp h
      have hlt : bs.length < cs.length := by
        simp only [hcs, List.length_append, List.length_cons]
        omega
      rw [hcs]
      exact step as c bs (by simpa using has) hc (separator_induction run step bs)
termination_by cs.length

theorem isSeparator_eq_false_iff {c : Char} :
    isSeparator c = false ↔ Text.isBlank c = false ∧ c ≠ '(' ∧ c ≠ ')' := by
  simp [isSeparator, Token.isParenthesis]

theorem isParenthesis_iff {c : Char} : Token.isParenthesis c = true ↔ c = '(' ∨ c = ')' := by
  simp [Token.isParenthesis]

theorem isBlank_eq_false_of_isParenthesis {c : Char} (h : Token.isParenthesis c = true) :
    Text.isBlank c = false := by
  rcases isParenthesis_iff.mp h with rfl | rfl <;> decide

theorem isParenthesis_eq_false_of_isBlank {c : Char} (h : Text.isBlank c = true) :
    Token.isParenthesis c = false := by
  cases hp : Token.isParenthesis c with
  | false => rfl
  | true => simp [isBlank_eq_false_of_isParenthesis hp] at h

theorem flatMap_pad_eq_self {cs : List Char} (h : ∀ c ∈ cs, isSeparator c = false) :
    cs.flatMap Token.pad = cs := by
  induction cs with
  | nil => rfl
  | cons c cs ih =>
      have hc := isSeparator_eq_false_iff.mp (h c List.mem_cons_self)
      have hcs := ih fun a ha => h a (List.mem_cons_of_mem c ha)
      simp [Token.pad, Token.isParenthesis, hc.2, hcs]

@[simp]
theorem sourceWords_nil : sourceWords [] = [] := rfl

theorem sourceWords_append_blank (as bs : List Char) {c : Char} (hc : Text.isBlank c = true) :
    sourceWords (as ++ c :: bs) = sourceWords as ++ sourceWords bs := by
  have hp : Token.pad c = [c] := by simp [Token.pad, isParenthesis_eq_false_of_isBlank hc]
  simp only [sourceWords, List.flatMap_append, List.flatMap_cons, hp, List.singleton_append]
  exact Text.words_append_blank_cons _ _ hc

theorem sourceWords_append_parenthesis (as bs : List Char) {c : Char}
    (hc : Token.isParenthesis c = true) :
    sourceWords (as ++ c :: bs) = sourceWords as ++ [c] :: sourceWords bs := by
  have hp : Token.pad c = [' ', c, ' '] := by simp [Token.pad, hc]
  have hs : Text.isBlank ' ' = true := by decide
  have hw : Text.words [c] = [[c]] :=
    Text.words_eq_singleton (by simpa using isBlank_eq_false_of_isParenthesis hc) (by simp)
  -- the blanks put around the parenthesis part it from both sides
  simp only [sourceWords, List.flatMap_append, List.flatMap_cons, hp, List.cons_append,
    List.nil_append]
  rw [Text.words_append_blank_cons _ _ hs, ← List.singleton_append (x := c),
    Text.words_append_blank_cons _ _ hs, hw, List.singleton_append]

/-- A run of other characters is one word, unless it is empty. -/
theorem sourceWords_eq_singleton {cs : List Char} (h : ∀ c ∈ cs, isSeparator c = false)
    (hne : cs ≠ []) : sourceWords cs = [cs] := by
  rw [sourceWords, flatMap_pad_eq_self h]
  exact Text.words_eq_singleton (fun c hc => (isSeparator_eq_false_iff.mp (h c hc)).1) hne

theorem ne_parentheses {w : List Char} (h : ∀ c ∈ w, isSeparator c = false) :
    w ≠ ['('] ∧ w ≠ [')'] := by
  constructor
  · rintro rfl
    exact absurd (h '(' List.mem_cons_self) (by decide)
  · rintro rfl
    exact absurd (h ')' List.mem_cons_self) (by decide)

/-- The words of a text are parentheses and runs of characters that are no separators. -/
theorem of_mem_sourceWords {cs w : List Char} (h : w ∈ sourceWords cs) :
    w = ['('] ∨ w = [')'] ∨ w ≠ [] ∧ ∀ c ∈ w, isSeparator c = false := by
  have hrun : ∀ as : List Char, (∀ a ∈ as, isSeparator a = false) → w ∈ sourceWords as →
      w ≠ [] ∧ ∀ c ∈ w, isSeparator c = false := by
    intro as has hw
    have hne := Text.ne_nil_of_mem_words hw
    by_cases has' : as = []
    · simp [has'] at hw
    · rw [sourceWords_eq_singleton has has', List.mem_singleton] at hw
      exact ⟨hne, hw ▸ has⟩
  induction cs using separator_induction with
  | run cs hcs => exact .inr (.inr (hrun cs hcs h))
  | step as c bs has hc ih =>
      rcases Bool.or_eq_true_iff.mp hc with hc | hc
      · rw [sourceWords_append_blank as bs hc, List.mem_append] at h
        exact h.elim (fun h => .inr (.inr (hrun as has h))) ih
      · rw [sourceWords_append_parenthesis as bs hc, List.mem_append, List.mem_cons] at h
        rcases h with h | rfl | h
        · exact .inr (.inr (hrun as has h))
        · rcases isParenthesis_iff.mp hc with rfl | rfl <;> simp
        · exact ih h

/-! ### Tokens of a text -/

namespace Token

/-- The tokens of a text given as characters. -/
def lex (cs : List Char) : Except WordFault (List Token) :=
  (sourceWords cs).mapM ofWord

theorem tokenize_eq_lex (text : String) : tokenize text = lex text.toList := rfl

theorem lex_append_blank {as bs : List Char} {c : Char} {ts us : List Token}
    (hc : Text.isBlank c = true) (ha : lex as = .ok ts) (hb : lex bs = .ok us) :
    lex (as ++ c :: bs) = .ok (ts ++ us) := by
  unfold lex at *
  rw [sourceWords_append_blank as bs hc, List.mapM_append, ha, hb]
  rfl

theorem lex_append_parenthesis {as bs : List Char} {c : Char} {token : Token}
    {ts us : List Token} (hc : isParenthesis c = true) (hw : ofWord [c] = .ok token)
    (ha : lex as = .ok ts) (hb : lex bs = .ok us) :
    lex (as ++ c :: bs) = .ok (ts ++ token :: us) := by
  unfold lex at *
  rw [sourceWords_append_parenthesis as bs hc, List.mapM_append, List.mapM_cons, ha, hw, hb]
  rfl

theorem lex_word {cs : List Char} {token : Token} (hne : cs ≠ [])
    (h : ∀ c ∈ cs, isSeparator c = false) (hw : ofWord cs = .ok token) :
    lex cs = .ok [token] := by
  rw [lex, sourceWords_eq_singleton h hne, List.mapM_cons, hw]
  rfl

/-- The tokens of texts with blanks between them are those of each text in order. -/
theorem lex_intercalate {α : Type} (text : α → String) (tokens : α → List Token) {as : List α}
    (h : ∀ a ∈ as, lex (text a).toList = .ok (tokens a)) :
    lex (" ".intercalate (as.map text)).toList = .ok (as.flatMap tokens) := by
  induction as with
  | nil => rfl
  | cons a as ih =>
      have ha := h a List.mem_cons_self
      have has := ih fun b hb => h b (List.mem_cons_of_mem a hb)
      cases as with
      | nil => simpa using ha
      | cons b as =>
          have hb : Text.isBlank ' ' = true := by decide
          have happ := lex_append_blank hb ha has
          simpa using happ

theorem lex_enclosed {text : String} {tokens : List Token} (h : lex text.toList = .ok tokens) :
    lex ("(" ++ text ++ ")").toList = .ok (.lparen :: (tokens ++ [.rparen])) := by
  have hnil : lex [] = .ok [] := rfl
  have hclose := lex_append_parenthesis (c := ')') rfl rfl h hnil
  have hopen := lex_append_parenthesis (c := '(') rfl rfl hnil hclose
  simpa using hopen

/-- Every token of a text is that of a word of the text. -/
theorem exists_word_of_mem {ws : List (List Char)} {tokens : List Token}
    (h : ws.mapM ofWord = .ok tokens) {token : Token} (ht : token ∈ tokens) :
    ∃ w ∈ ws, ofWord w = .ok token := by
  induction ws generalizing tokens with
  | nil =>
      cases h
      simp at ht
  | cons w ws ih =>
      rw [List.mapM_cons] at h
      cases hw : ofWord w with
      | error fault => simp [hw, bind, Except.bind] at h
      | ok first =>
          cases hws : ws.mapM ofWord with
          | error fault => simp [hw, hws, bind, Except.bind] at h
          | ok others =>
              obtain rfl : first :: others = tokens := by
                simpa [hw, hws, bind, Except.bind, pure, Except.pure] using h
              rcases List.mem_cons.mp ht with rfl | ht
              · exact ⟨w, List.mem_cons_self, hw⟩
              · obtain ⟨w', hmem, hw'⟩ := ih hws ht
                exact ⟨w', List.mem_cons_of_mem w hmem, hw'⟩

end Token

end DynLisp

/-! # Blank characters

What separates words in a source text and what is cut off at both ends of a typed line or of a
setting. Texts are lists of characters here, so that splitting is a matter of list lemmas.
-/

namespace DynLisp.Text

/-- The blank characters: the white space of Unicode and the four information separators
U+001C to U+001F. The zero-width characters U+200B, U+2060 and U+FEFF are not blank. -/
def isBlank (c : Char) : Bool :=
  let n := c.toNat
  (0x09 ≤ n && n ≤ 0x0D) || (0x1C ≤ n && n ≤ 0x20) || n == 0x85 || n == 0xA0 || n == 0x1680 ||
    (0x2000 ≤ n && n ≤ 0x200A) || n == 0x2028 || n == 0x2029 || n == 0x202F || n == 0x205F ||
    n == 0x3000

/-- The words of a text: its maximal runs of characters that are not blank, in order. -/
def words (cs : List Char) : List (List Char) :=
  (cs.splitOnP isBlank).filter (! ·.isEmpty)

theorem ne_nil_of_mem_words {cs w : List Char} (h : w ∈ words cs) : w ≠ [] := by
  intro hw
  simp [words, hw] at h

@[simp]
theorem words_nil : words [] = [] := rfl

/-- A blank character parts the words before it from the words after it. -/
theorem words_append_blank_cons (as bs : List Char) {c : Char} (hc : isBlank c = true) :
    words (as ++ c :: bs) = words as ++ words bs := by
  simp [words, List.splitOnP_append_cons as bs hc]

/-- A text without blanks is one word, unless it is empty. -/
theorem words_eq_singleton {cs : List Char} (h : ∀ c ∈ cs, isBlank c = false) (hne : cs ≠ []) :
    words cs = [cs] := by
  simp [words, List.splitOnP_eq_singleton h, hne]

/-- A text without the blanks at its two ends. -/
def strip (cs : List Char) : List Char :=
  ((cs.dropWhile isBlank).reverse.dropWhile isBlank).reverse

/-- The lines of a text. Only a line feed ends a line, and a text that ends in one has no further
empty line after it. -/
def lines (cs : List Char) : List (List Char) :=
  let pieces := cs.splitOn '\n'
  if pieces.getLast? = some [] then pieces.dropLast else pieces

end DynLisp.Text

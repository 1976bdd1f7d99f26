import DynLisp.Proofs.Reading.Trees

/-! # Reading by recursive descent

A list may also be read by a function that calls itself for each list inside. The open lists are
then on the call stack, and what is left to do with them is what the reader keeps on its own stack:
when a list has been read, it becomes an element of the list around it, which is read on. -/

namespace DynLisp.Program

/-- A reading that leaves at most `bound` tokens over. -/
structure ReadingWithin (bound : Nat) extends Reading where
  length_rest_le : rest.length ≤ bound

def ReadingWithin.weaken {bound bound' : Nat} (reading : ReadingWithin bound)
    (h : bound ≤ bound') : ReadingWithin bound' :=
  ⟨reading.toReading, Nat.le_trans reading.length_rest_le h⟩

mutual

/-- Reads one list off the front of the tokens. The first token is used up and has to open it. -/
def descend (tokens : List Token) : ReadingWithin (tokens.length - 1) :=
  match tokens with
  | [] => ⟨⟨.error .noOpening, []⟩, Nat.le_refl _⟩
  | .lparen :: rest => descendFrom rest []
  | .rparen :: rest | .number _ :: rest | .symbol _ :: rest =>
    ⟨⟨.error .noOpening, rest⟩, Nat.le_refl _⟩
termination_by (tokens.length, 0)

/-- Reads on in a list of which `elements` have been read. A token that opens a list inside is put
back for the call that reads that list. -/
def descendFrom (tokens : List Token) (elements : List Value) : ReadingWithin tokens.length :=
  match tokens with
  | [] => ⟨⟨.error .noClosing, []⟩, Nat.le_refl _⟩
  | .rparen :: rest => ⟨⟨.ok elements, rest⟩, Nat.le_succ _⟩
  | .number n :: rest => (descendFrom rest (elements ++ [.number n])).weaken (Nat.le_succ _)
  | .symbol name :: rest => (descendFrom rest (elements ++ [.symbol name])).weaken (Nat.le_succ _)
  | .lparen :: rest =>
    match descend (.lparen :: rest) with
    | ⟨⟨.error fault, rest'⟩, h⟩ => ⟨⟨.error fault, rest'⟩, Nat.le_succ_of_le h⟩
    | ⟨⟨.ok items, rest'⟩, h⟩ =>
      have : rest'.length < rest.length + 1 := Nat.lt_succ_of_le h
      (descendFrom rest' (elements ++ [.list items])).weaken (Nat.le_succ_of_le h)
termination_by (tokens.length, 1)

end

theorem descend_lparen (rest : List Token) :
    (descend (.lparen :: rest)).toReading = (descendFrom rest []).toReading := by
  rw [descend]

theorem descendFrom_number (n : Int) (rest : List Token) (elements : List Value) :
    (descendFrom (.number n :: rest) elements).toReading =
      (descendFrom rest (elements ++ [.number n])).toReading := by
  rw [descendFrom, ReadingWithin.weaken]

theorem descendFrom_symbol (name : String) (rest : List Token) (elements : List Value) :
    (descendFrom (.symbol name :: rest) elements).toReading =
      (descendFrom rest (elements ++ [.symbol name])).toReading := by
  rw [descendFrom, ReadingWithin.weaken]

/-- A list inside is read first, and what is wrong with it is wrong with the list around it. -/
theorem descendFrom_lparen (rest : List Token) (elements : List Value) :
    (descendFrom (.lparen :: rest) elements).toReading =
      match (descendFrom rest []).toReading with
      | ⟨.error fault, rest'⟩ => ⟨.error fault, rest'⟩
      | ⟨.ok items, rest'⟩ => (descendFrom rest' (elements ++ [.list items])).toReading := by
  rw [← descend_lparen, descendFrom]
  rcases descend (.lparen :: rest) with ⟨⟨result, rest'⟩, h⟩
  cases result <;> rfl

/-- Goes on when the innermost open list has been read. -/
def resume : (outer : List (List Value)) → Reading → Reading
  | next :: outer, ⟨.ok items, rest⟩ => readWithin rest (.list items :: next) outer
  | _, reading => reading

theorem resume_error (outer : List (List Value)) (fault : ReadFault) (rest : List Token) :
    resume outer ⟨.error fault, rest⟩ = ⟨.error fault, rest⟩ := by
  cases outer <;> rfl

/-- Whatever lists are open around it, the innermost one is read as by a call of its own. -/
theorem readWithin_eq_resume : ∀ (tokens : List Token) (elements : List Value)
    (outer : List (List Value)),
    readWithin tokens elements outer =
      resume outer (descendFrom tokens elements.reverse).toReading
  | [], elements, outer => by
      rw [descendFrom]
      exact (resume_error outer .noClosing []).symm
  | .number n :: rest, elements, outer => by
      have hi := readWithin_eq_resume rest (.number n :: elements) outer
      rw [descendFrom_number, ← List.reverse_cons]
      exact hi
  | .symbol name :: rest, elements, outer => by
      have hi := readWithin_eq_resume rest (.symbol name :: elements) outer
      rw [descendFrom_symbol, ← List.reverse_cons]
      exact hi
  | .rparen :: rest, elements, outer => by
      rw [descendFrom]
      cases outer <;> rfl
  | .lparen :: rest, elements, outer => by
      -- a list inside is read with the list around it on the stack
      have hinner := readWithin_eq_resume rest [] (elements :: outer)
      rw [readWithin, hinner, descendFrom_lparen, List.reverse_nil]
      rcases hr : (descendFrom rest []).toReading with ⟨result, rest'⟩
      have hle : rest'.length ≤ rest.length := by
        have hle := (descendFrom rest []).length_rest_le
        rwa [hr] at hle
      cases result with
      | error fault => rw [resume_error, resume_error]
      | ok items =>
          have hi := readWithin_eq_resume rest' (.list items :: elements) outer
          rw [List.reverse_cons] at hi
          exact hi
termination_by tokens => tokens.length
decreasing_by all_goals simp only [List.length_cons]; omega

/-- Without labels, labelled tokens are read as tokens. -/
theorem readLabelled_unlabelled (tokens : List Token) :
    readLabelled (tokens.map (⟨·, none⟩)) = readList tokens := by
  cases tokens with
  | nil => rfl
  | cons token rest => simp [readLabelled, Function.comp_def]

theorem readList_eq_toReading_descend (tokens : List Token) :
    readList tokens = (descend tokens).toReading := by
  cases tokens with
  | nil => rw [readList, descend]
  | cons token rest =>
      cases token with
      | lparen =>
          rw [readList, readWithin_eq_resume, descend_lparen]
          rfl
      | rparen | number | symbol => simp [readList, descend]

/-- The reader with a stack of its own reads as recursive descent does: it gives the same list or
fault and leaves the same tokens over. The tokens of the list that it reads and those that it leaves
over are the tokens there were. -/
theorem readList_eq_descend (tokens : List Token) :
    readList tokens = (descend tokens).toReading ∧
    readLabelled (tokens.map (⟨·, none⟩)) = (descend tokens).toReading ∧
    ∀ items rest, readList tokens = ⟨.ok items, rest⟩ →
      (Value.list items).flatten ++ rest = tokens := by
  have hread := readList_eq_toReading_descend tokens
  refine ⟨hread, (readLabelled_unlabelled tokens).trans hread, ?_⟩
  intro items rest h
  exact (readList_sound h).2.symm

/-- A list inside a list, and a parenthesis too many. -/
theorem readList_eq_descend_nested :
    let tokens := [.lparen, .symbol "a", .lparen, .number 1, .rparen, .rparen, .rparen]
    let items := [.symbol "a", .list [.number 1]]
    readList tokens = ⟨.ok items, [.rparen]⟩ ∧
      (Value.list items).flatten ++ [.rparen] = tokens := by
  intro tokens items
  have h : readList tokens = ⟨.ok items, [.rparen]⟩ := rfl
  exact ⟨h, (readList_eq_descend tokens).2.2 items [.rparen] h⟩

end DynLisp.Program

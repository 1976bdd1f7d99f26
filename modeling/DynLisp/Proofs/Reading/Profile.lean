import DynLisp.Proofs.Reading.Trees
import Mathlib.Data.List.Basic

/-! # Depth profiles

The depth of a token sequence is the number of its opening parentheses less that of its closing
ones. What the reader makes of a sequence that begins with an opening parenthesis is decided by the
first place where the depth of what precedes it is back at zero. -/

namespace DynLisp

/-- The number of opening parentheses less that of closing ones. -/
def openDepth (tokens : List Token) : Int :=
  (tokens.count .lparen : Int) - tokens.count .rparen

/-- The least number of tokens, other than zero, that leave no list open. -/
structure ClosesAt (tokens : List Token) (k : Nat) : Prop where
  pos : 1 ≤ k
  le_length : k ≤ tokens.length
  openDepth_eq : openDepth (tokens.take k) = 0
  least : ∀ j, 1 ≤ j → j < k → openDepth (tokens.take j) ≠ 0

theorem openDepth_append (ts us : List Token) :
    openDepth (ts ++ us) = openDepth ts + openDepth us := by
  simp only [openDepth, List.count_append]
  omega

theorem openDepth_take_cons (token : Token) (tokens : List Token) (k : Nat) :
    openDepth ((token :: tokens).take (k + 1)) = openDepth [token] + openDepth (tokens.take k) := by
  rw [List.take_succ_cons, ← List.singleton_append, openDepth_append]

theorem openDepth_lparen : openDepth [.lparen] = 1 := rfl

theorem neg_one_le_openDepth_singleton (token : Token) : -1 ≤ openDepth [token] := by
  cases token <;> simp [openDepth]

/-- One more token lowers the depth by one at most. -/
theorem openDepth_take_succ (tokens : List Token) (k : Nat) :
    openDepth (tokens.take k) - 1 ≤ openDepth (tokens.take (k + 1)) := by
  rw [List.take_add_one, openDepth_append]
  cases tokens[k]? with
  | none =>
      have hnil : openDepth [] = 0 := rfl
      simp only [Option.toList_none, hnil]
      omega
  | some token =>
      have ht := neg_one_le_openDepth_singleton token
      simp only [Option.toList_some]
      omega

namespace Program

/-! ### Reading along the profile -/

/-- A token that leaves some list open takes the reader one step further, and the number of open
lists changes by the depth of the token. -/
theorem readWithin_step (token : Token) (tokens : List Token) (elements : List Value)
    (outer : List (List Value)) (h : 1 ≤ outer.length + 1 + openDepth [token]) :
    ∃ elements' outer',
      readWithin (token :: tokens) elements outer = readWithin tokens elements' outer' ∧
        (outer'.length : Int) = outer.length + openDepth [token] := by
  cases token with
  | lparen => exact ⟨[], elements :: outer, rfl, by simp [openDepth]⟩
  | number n => exact ⟨.number n :: elements, outer, rfl, by simp [openDepth]⟩
  | symbol name => exact ⟨.symbol name :: elements, outer, rfl, by simp [openDepth]⟩
  | rparen =>
      cases outer with
      | nil => exact absurd h (by decide)
      | cons next outer =>
          have hclose : openDepth [.rparen] = -1 := rfl
          refine ⟨.list elements.reverse :: next, outer, rfl, ?_⟩
          rw [List.length_cons, hclose]
          omega

/-- While some list stays open, the reader asks for more. -/
theorem readWithin_of_pos {tokens : List Token} {elements : List Value} {outer : List (List Value)}
    (h : ∀ k ≤ tokens.length, 1 ≤ outer.length + 1 + openDepth (tokens.take k)) :
    readWithin tokens elements outer = ⟨.error .noClosing, []⟩ := by
  induction tokens generalizing elements outer with
  | nil => rfl
  | cons token tokens ih =>
      have hfirst := h 1 (by simp)
      obtain ⟨elements', outer', hstep, hlen⟩ := readWithin_step token tokens elements outer hfirst
      rw [hstep]
      refine ih fun k hk => ?_
      have hk := h (k + 1) (by simpa using hk)
      rw [openDepth_take_cons] at hk
      omega

/-- The reader stops where the last open list is closed. -/
theorem readWithin_of_zero {tokens : List Token} {elements : List Value}
    {outer : List (List Value)} {k : Nat} (hk : k < tokens.length)
    (hz : outer.length + 1 + openDepth (tokens.take (k + 1)) = 0)
    (hpos : ∀ j ≤ k, 1 ≤ outer.length + 1 + openDepth (tokens.take j)) :
    ∃ items, readWithin tokens elements outer = ⟨.ok items, tokens.drop (k + 1)⟩ := by
  induction tokens generalizing elements outer k with
  | nil => simp at hk
  | cons token tokens ih =>
      cases k with
      | zero =>
          -- only a closing parenthesis with no list around it leaves none open
          have ht := neg_one_le_openDepth_singleton token
          have hz : outer.length + 1 + openDepth [token] = 0 := hz
          obtain rfl : outer = [] := List.eq_nil_of_length_eq_zero (by omega)
          cases token with
          | rparen => exact ⟨elements.reverse, rfl⟩
          | lparen | number | symbol => simp [openDepth] at hz
      | succ k =>
          have hfirst := hpos 1 (by omega)
          obtain ⟨elements', outer', hstep, hlen⟩ :=
            readWithin_step token tokens elements outer hfirst
          rw [hstep, List.drop_succ_cons]
          rw [openDepth_take_cons] at hz
          refine ih (by simpa using hk) (by omega) fun j hj => ?_
          have hj := hpos (j + 1) (by omega)
          rw [openDepth_take_cons] at hj
          omega

end Program

/-! ### Where a list closes -/

/-- Some list is open as long as the depth has not come back to zero. -/
theorem one_le_openDepth_take {tokens : List Token} {n : Nat}
    (h : ∀ k, 1 ≤ k → k ≤ n → openDepth ((.lparen :: tokens).take k) ≠ 0) :
    ∀ k, 1 ≤ k → k ≤ n → 1 ≤ openDepth ((.lparen :: tokens).take k) := by
  intro k
  induction k with
  | zero =>
      intro hpos
      omega
  | succ k ih =>
      intro hpos hle
      by_cases hk : k = 0
      · subst hk
        exact Int.le_of_eq openDepth_lparen.symm
      · have hbefore := ih (by omega) (by omega)
        have hstep := openDepth_take_succ (.lparen :: tokens) k
        have hne := h (k + 1) hpos hle
        omega

/-- If the depth does not stay positive, it comes back to zero. -/
theorem exists_closesAt {tokens : List Token}
    (h : ¬ ∀ k, 1 ≤ k → k ≤ (Token.lparen :: tokens).length →
      1 ≤ openDepth ((.lparen :: tokens).take k)) :
    ∃ k, ClosesAt (.lparen :: tokens) k := by
  by_contra hnone
  refine h (one_le_openDepth_take fun k => ?_)
  induction k using Nat.strongRecOn with
  | ind k ih =>
      intro hpos hle hz
      exact hnone ⟨k, hpos, hle, hz, fun j hj hjk => ih j hjk hj (by omega)⟩

namespace Program

theorem ofTokens_of_head {tokens : List Token} (h : tokens.head? ≠ some .lparen) :
    ofTokens tokens = .error .noOpening := by
  cases tokens with
  | nil => rfl
  | cons token tokens =>
      cases token with
      | lparen => simp at h
      | rparen | number | symbol => rfl

theorem ofTokens_of_pos {tokens : List Token}
    (h : ∀ k, 1 ≤ k → k ≤ (Token.lparen :: tokens).length →
      1 ≤ openDepth ((.lparen :: tokens).take k)) :
    ofTokens (.lparen :: tokens) = .error .noClosing := by
  have hr : readList (.lparen :: tokens) = ⟨.error .noClosing, []⟩ := by
    refine readWithin_of_pos fun k hk => ?_
    have hd := h (k + 1) (by omega) (by simpa using hk)
    rwa [openDepth_take_cons] at hd
  exact ofTokens_of_error hr

theorem readList_of_closesAt {tokens : List Token} {k : Nat}
    (h : ClosesAt (.lparen :: tokens) k) :
    ∃ items, readList (.lparen :: tokens) = ⟨.ok items, (Token.lparen :: tokens).drop k⟩ := by
  obtain ⟨hk, hle, hz, hleast⟩ := h
  have hone : k ≠ 1 := by
    rintro rfl
    exact absurd (openDepth_lparen.symm.trans hz) (by decide)
  -- the parenthesis that opens the list comes before the one that closes it
  obtain ⟨j, rfl⟩ : ∃ j, k = j + 1 + 1 := ⟨k - 2, by omega⟩
  have hpos := one_le_openDepth_take fun i hi hij => hleast i hi (Nat.lt_succ_of_le hij)
  rw [openDepth_take_cons] at hz
  rw [List.drop_succ_cons]
  refine readWithin_of_zero (Nat.le_of_succ_le_succ hle) hz fun i hi => ?_
  have hd := hpos (i + 1) (by omega) (by omega)
  rwa [openDepth_take_cons] at hd

/-- The tokens of a tree are those of no other tree. -/
theorem eq_list_of_flatten_eq {v : Value} {items : List Value} (hv : IsTree v)
    (hitems : IsTree (.list items)) (h : v.flatten = (Value.list items).flatten) :
    v = .list items := by
  cases hv with
  | number n => simp [Value.flatten] at h
  | symbol name => simp [Value.flatten] at h
  | @list items' h' =>
      have hr := ofTokens_eq_ok_iff.mpr ⟨.list h', h⟩
      rw [ofTokens_eq_ok_iff.mpr ⟨hitems, rfl⟩] at hr
      cases hr
      rfl

/-- The text is no program, for this reason and with this message. -/
def Rejects (text : String) (fault : ReadFault) (message : String) : Prop :=
  parse text = .error fault ∧ fault.message = message

/-- What a text is read as, by the depth profile of its tokens. -/
theorem parse_by_depth {text : String} {tokens : List Token}
    (h : Token.tokenize text = .ok tokens) :
    (tokens.head? ≠ some .lparen →
      Rejects text .noOpening "Parentheses pair do not match: program must begin with '('") ∧
    (tokens.head? = some .lparen →
      (∀ k, 1 ≤ k → k ≤ tokens.length → 1 ≤ openDepth (tokens.take k)) →
      Rejects text .noClosing "Parentheses pair do not match: missing ')'") ∧
    (tokens.head? = some .lparen →
      ¬ (∀ k, 1 ≤ k → k ≤ tokens.length → 1 ≤ openDepth (tokens.take k)) →
      ∃ k, ClosesAt tokens k ∧
        (∀ hlt : k < tokens.length,
          Rejects text (.trailing tokens[k]) ("Parentheses pair do not match: unexpected " ++
            tokens[k].describe ++ " after end of program")) ∧
        (k = tokens.length →
          ∃ items, parse text = .ok items ∧ IsTree (.list items) ∧
            (Value.list items).flatten = tokens ∧
            ∀ v, IsTree v → v.flatten = tokens → v = .list items)) := by
  have hparse : parse text = ofTokens tokens := by simp [parse, h]
  simp only [Rejects, hparse]
  refine ⟨fun hhead => ⟨ofTokens_of_head hhead, rfl⟩, fun hhead hpos => ?_, fun hhead hnot => ?_⟩
  · obtain ⟨rest, rfl⟩ := List.head?_eq_some_iff.mp hhead
    exact ⟨ofTokens_of_pos hpos, rfl⟩
  · obtain ⟨rest, rfl⟩ := List.head?_eq_some_iff.mp hhead
    obtain ⟨k, hk⟩ := exists_closesAt hnot
    obtain ⟨items, hr⟩ := readList_of_closesAt hk
    refine ⟨k, hk, fun hlt => ⟨?_, rfl⟩, fun hend => ?_⟩
    · rw [List.drop_eq_getElem_cons hlt] at hr
      exact ofTokens_of_cons hr
    · rw [hend, List.drop_length] at hr
      have hok := ofTokens_of_nil hr
      obtain ⟨htree, hflat⟩ := ofTokens_eq_ok_iff.mp hok
      refine ⟨items, hok, htree, hflat, fun v hv hvf => ?_⟩
      exact eq_list_of_flatten_eq hv htree (hvf.trans hflat.symm)

theorem parse_by_depth_open :
    Token.tokenize "(a" = .ok [.lparen, .symbol "a"] ∧
      Rejects "(a" .noClosing "Parentheses pair do not match: missing ')'" := by
  have ht : Token.tokenize "(a" = .ok [.lparen, .symbol "a"] := by decide +kernel
  refine ⟨ht, (parse_by_depth ht).2.1 rfl fun k hpos hle => ?_⟩
  have hk : k = 1 ∨ k = 2 := by
    simp only [List.length_cons, List.length_nil] at hle
    omega
  rcases hk with rfl | rfl <;> decide

end Program

end DynLisp

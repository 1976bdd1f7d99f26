import DynLisp.Program
import DynLisp.Value.Shape

/-! # Trees and their tokens

A tree is built of numbers and symbols by lists alone. Its shape, which is found by visiting one
list after another, is as deep as the tree. Reading inverts flattening: the lists still open on the
stack flatten to the tokens read so far, and this is what a step of the reader keeps. -/

namespace DynLisp

inductive IsTree : Value → Prop where
  | number (n) : IsTree (.number n)
  | symbol (name) : IsTree (.symbol name)
  | list {items} (h : ∀ v ∈ items, IsTree v) : IsTree (.list items)

namespace Value

mutual

/-- The tokens of a tree in order. A value that is no tree has none. -/
def flatten : Value → List Token
  | .number n => [.number n]
  | .symbol name => [.symbol name]
  | .list items => .lparen :: (flattenAll items ++ [.rparen])
  | .boolean _ | .lambda .. | .void | .null | .text _ => []

def flattenAll : List Value → List Token
  | [] => []
  | v :: vs => v.flatten ++ flattenAll vs

end

theorem flattenAll_eq_flatMap (vs : List Value) : flattenAll vs = vs.flatMap flatten := by
  induction vs with
  | nil => rfl
  | cons v vs ih => simp [flattenAll, ih]

@[simp]
theorem flattenAll_append (vs ws : List Value) :
    flattenAll (vs ++ ws) = flattenAll vs ++ flattenAll ws := by
  simp [flattenAll_eq_flatMap]

@[simp]
theorem flattenAll_singleton (v : Value) : flattenAll [v] = v.flatten := by
  simp [flattenAll]

end Value

theorem isTree_list_iff {items : List Value} :
    IsTree (.list items) ↔ ∀ v ∈ items, IsTree v := by
  constructor
  · intro h
    cases h with
    | list h => exact h
  · exact .list

/-! ### Depth -/

theorem Value.depth_le_depthOfAll {v : Value} {vs : List Value} (h : v ∈ vs) :
    v.depth ≤ depthOfAll vs := by
  induction vs with
  | nil => simp at h
  | cons w vs ih =>
      rw [depthOfAll]
      rcases List.mem_cons.mp h with rfl | h
      · exact Nat.le_max_left _ _
      · exact Nat.le_trans (ih h) (Nat.le_max_right _ _)

namespace Shape

open Value (depthOfAll)

variable {pending : List (Nat × List Value)} {shape : Shape}

/-- The depth that the elements still to be visited reach. -/
def pendingDepth : List (Nat × List Value) → Nat
  | [] => 0
  | (depth, vs) :: pending => max (depth + depthOfAll vs) (pendingDepth pending)

/-- The elements still to be visited are trees, and the lists around them have been visited. -/
def Covers (shape : Shape) (pending : List (Nat × List Value)) : Prop :=
  ∀ run ∈ pending, IsTree (.list run.2) ∧ run.1 ≤ shape.depth

theorem Covers.head {depth : Nat} {vs : List Value} (h : shape.Covers ((depth, vs) :: pending)) :
    (∀ v ∈ vs, IsTree v) ∧ depth ≤ shape.depth := by
  obtain ⟨hvs, hle⟩ := h (depth, vs) List.mem_cons_self
  exact ⟨isTree_list_iff.mp hvs, hle⟩

theorem Covers.tail {depth : Nat} {v : Value} {rest : List Value}
    (h : shape.Covers ((depth, v :: rest) :: pending)) :
    shape.Covers ((depth, rest) :: pending) := by
  obtain ⟨hvs, hle⟩ := h.head
  refine List.forall_mem_cons.mpr ⟨⟨.list (List.forall_mem_cons.mp hvs).2, hle⟩, ?_⟩
  exact (List.forall_mem_cons.mp h).2

theorem Covers.addList {depth : Nat} {items rest : List Value}
    (h : shape.Covers ((depth, .list items :: rest) :: pending)) :
    (shape.addList (depth + 1)).Covers ((depth + 1, items) :: (depth, rest) :: pending) := by
  have hitems := h.head.1 (.list items) List.mem_cons_self
  refine List.forall_mem_cons.mpr ⟨⟨hitems, Nat.le_max_right _ _⟩, fun run hr => ?_⟩
  obtain ⟨htree, hle⟩ := h.tail run hr
  exact ⟨htree, Nat.le_trans hle (Nat.le_max_left _ _)⟩

/-- Visiting elements adds what they reach to the depth. -/
theorem depth_visit (h : shape.Covers pending) :
    (visit pending shape).depth = max shape.depth (pendingDepth pending) := by
  fun_induction visit pending shape with
  | case1 shape => simp [pendingDepth]
  | case2 depth pending shape ih =>
      have hle := h.head.2
      rw [ih (List.forall_mem_cons.mp h).2]
      simp only [pendingDepth, depthOfAll]
      omega
  | case3 depth items rest pending shape ih =>
      rw [ih h.addList]
      simp only [pendingDepth, depthOfAll, Value.depth, Shape.addList]
      omega
  | case4 depth n rest pending shape ih | case5 depth name rest pending shape ih =>
      have hle := h.head.2
      rw [ih h.tail]
      simp only [pendingDepth, depthOfAll, Value.depth]
      omega
  | case6 depth v rest pending shape hlist hnumber hsymbol ih =>
      cases h.head.1 v List.mem_cons_self with
      | number n => exact absurd rfl (hnumber n)
      | symbol name => exact absurd rfl (hsymbol name)
      | @list items _ => exact absurd rfl (hlist items)

/-- The shape of a tree has the depth of the tree. -/
theorem depth_ofList {items : List Value} (h : IsTree (.list items)) :
    (ofList items).depth = (Value.list items).depth := by
  have hc : Shape.empty.Covers [(0, [.list items])] := by
    refine List.forall_mem_singleton.mpr ⟨.list (List.forall_mem_singleton.mpr h), Nat.le_refl 0⟩
  rw [ofList, depth_visit hc]
  simp [pendingDepth, depthOfAll, empty]

end Shape

namespace Program

open Value (flattenAll)

/-! ### Flattened trees are read back -/

theorem readWithin_flattenAll {vs : List Value}
    (h : ∀ v ∈ vs, ∀ rest elements outer,
      readWithin (v.flatten ++ rest) elements outer = readWithin rest (v :: elements) outer)
    (rest : List Token) (elements : List Value) (outer : List (List Value)) :
    readWithin (flattenAll vs ++ rest) elements outer =
      readWithin rest (vs.reverse ++ elements) outer := by
  induction vs generalizing elements with
  | nil => rfl
  | cons v vs ih =>
      have hv := h v List.mem_cons_self
      have hvs := fun w hw => h w (List.mem_cons_of_mem v hw)
      simp only [flattenAll, List.append_assoc, hv, ih hvs, List.reverse_cons, List.nil_append,
        List.cons_append]

/-- The tokens of a tree add one element to the innermost open list. -/
theorem readWithin_flatten {v : Value} (hv : IsTree v) (rest : List Token) (elements : List Value)
    (outer : List (List Value)) :
    readWithin (v.flatten ++ rest) elements outer = readWithin rest (v :: elements) outer := by
  induction hv generalizing rest elements outer with
  | number n => rfl
  | symbol name => rfl
  | @list items _ ih =>
      have h := readWithin_flattenAll ih (.rparen :: rest) [] (elements :: outer)
      simpa [Value.flatten, readWithin] using h

theorem readList_flatten {items : List Value} (h : IsTree (.list items)) (rest : List Token) :
    readList ((Value.list items).flatten ++ rest) = ⟨.ok items, rest⟩ := by
  have hr := readWithin_flattenAll
    (fun v hv => readWithin_flatten (isTree_list_iff.mp h v hv)) (.rparen :: rest) [] []
  simpa [Value.flatten, readList, readWithin] using hr

/-! ### What is read flattens to the tokens -/

/-- The tokens that opened the lists on the stack and filled them so far. -/
def opened : List Value → List (List Value) → List Token
  | elements, [] => .lparen :: flattenAll elements.reverse
  | elements, next :: outer => opened next outer ++ .lparen :: flattenAll elements.reverse

theorem opened_nil (elements : List Value) (outer : List (List Value)) :
    opened [] (elements :: outer) = opened elements outer ++ [.lparen] := rfl

theorem opened_cons (v : Value) (elements : List Value) (outer : List (List Value)) :
    opened (v :: elements) outer = opened elements outer ++ v.flatten := by
  cases outer <;> simp [opened]

/-- A successful reading accounts for every token, those of the open lists included. -/
theorem readWithin_sound {tokens rest : List Token} {elements items : List Value}
    {outer : List (List Value)} (h : readWithin tokens elements outer = ⟨.ok items, rest⟩)
    (he : IsTree (.list elements)) (ho : ∀ es ∈ outer, IsTree (.list es)) :
    IsTree (.list items) ∧
      opened elements outer ++ tokens = (Value.list items).flatten ++ rest := by
  -- the stack holds trees only, and each step moves one token to the tokens of the stack
  fun_induction readWithin tokens elements outer with
  | case1 => simp at h
  | case2 tokens elements outer ih =>
      have hs : ∀ es ∈ elements :: outer, IsTree (.list es) := by
        simpa only [List.forall_mem_cons] using ⟨he, ho⟩
      have hi := ih h (.list (by simp)) hs
      simpa [opened_nil] using hi
  | case3 tokens elements =>
      obtain ⟨rfl, rfl⟩ : elements.reverse = items ∧ tokens = rest := by simpa using h
      refine ⟨isTree_list_iff.mpr ?_, by simp [opened, Value.flatten]⟩
      simpa using isTree_list_iff.mp he
  | case4 tokens elements next outer ih =>
      have hl : IsTree (.list elements.reverse) := by
        refine isTree_list_iff.mpr ?_
        simpa using isTree_list_iff.mp he
      have hn : IsTree (.list (.list elements.reverse :: next)) := by
        refine .list (List.forall_mem_cons.mpr ⟨hl, isTree_list_iff.mp (ho next (by simp))⟩)
      have hi := ih h hn (fun es hes => ho es (List.mem_cons_of_mem next hes))
      simpa [opened_cons, opened, Value.flatten] using hi
  | case5 n tokens elements outer ih =>
      have hn : IsTree (.list (.number n :: elements)) :=
        .list (List.forall_mem_cons.mpr ⟨.number n, isTree_list_iff.mp he⟩)
      have hi := ih h hn ho
      simpa [opened_cons, Value.flatten] using hi
  | case6 name tokens elements outer ih =>
      have hn : IsTree (.list (.symbol name :: elements)) :=
        .list (List.forall_mem_cons.mpr ⟨.symbol name, isTree_list_iff.mp he⟩)
      have hi := ih h hn ho
      simpa [opened_cons, Value.flatten] using hi

theorem readList_sound {tokens rest : List Token} {items : List Value}
    (h : readList tokens = ⟨.ok items, rest⟩) :
    IsTree (.list items) ∧ tokens = (Value.list items).flatten ++ rest := by
  unfold readList at h
  split at h
  · simp at h
  · have hs := readWithin_sound h (.list (by simp)) (by simp)
    simpa [opened, flattenAll] using hs
  · simp at h

theorem ofTokens_of_error {tokens rest : List Token} {fault : ReadFault}
    (h : readList tokens = ⟨.error fault, rest⟩) : ofTokens tokens = .error fault := by
  simp [ofTokens, h]

theorem ofTokens_of_nil {tokens : List Token} {items : List Value}
    (h : readList tokens = ⟨.ok items, []⟩) : ofTokens tokens = .ok items := by
  simp [ofTokens, h]

theorem ofTokens_of_cons {tokens rest : List Token} {items : List Value} {token : Token}
    (h : readList tokens = ⟨.ok items, token :: rest⟩) :
    ofTokens tokens = .error (.trailing token) := by
  simp [ofTokens, h]

/-- Tokens are one list with nothing after it exactly if they are those of a tree. -/
theorem ofTokens_eq_ok_iff {tokens : List Token} {items : List Value} :
    ofTokens tokens = .ok items ↔
      IsTree (.list items) ∧ (Value.list items).flatten = tokens := by
  constructor
  · intro h
    rcases hr : readList tokens with ⟨result, rest⟩
    cases result with
    | error fault => simp [ofTokens_of_error hr] at h
    | ok read =>
        cases rest with
        | nil =>
            obtain rfl : read = items := by simpa [ofTokens_of_nil hr] using h
            obtain ⟨ht, hf⟩ := readList_sound hr
            exact ⟨ht, by simpa using hf.symm⟩
        | cons token rest => simp [ofTokens_of_cons hr] at h
  · rintro ⟨ht, rfl⟩
    have hr := readList_flatten ht []
    rw [List.append_nil] at hr
    exact ofTokens_of_nil hr

end Program

end DynLisp

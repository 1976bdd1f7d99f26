/-! # Values

One type serves for programs and for what they compute: a program is a list of numbers, symbols
and lists, and evaluation adds truth values, functions and the absence of a value.
-/

namespace DynLisp

/-- Programs and their results. `null` and `text` come only from outside a program: they stand for
themselves, and a name bound to `null` counts as unbound. -/
inductive Value where
  | number (n : Int)
  | symbol (name : String)
  | boolean (b : Bool)
  | list (items : List Value)
  /-- A function: its parameters in order and its body, which is a list that has not been
  evaluated. No scope is captured. -/
  | lambda (params : List String) (body : List Value)
  /-- The absence of a value, which is what a definition gives. -/
  | void
  | null
  | text (content : String)
  deriving Repr, Inhabited

namespace Value

/-- Induction on values, with the hypothesis for the elements of a list or body in terms of
membership. -/
@[elab_as_elim]
theorem induction {P : Value → Prop}
    (number : ∀ n, P (.number n)) (symbol : ∀ name, P (.symbol name))
    (boolean : ∀ b, P (.boolean b))
    (list : ∀ items, (∀ v ∈ items, P v) → P (.list items))
    (lambda : ∀ params body, (∀ v ∈ body, P v) → P (.lambda params body))
    (void : P .void) (null : P .null) (text : ∀ s, P (.text s)) (v : Value) : P v :=
  @Value.rec P (fun vs => ∀ v ∈ vs, P v)
    number symbol boolean list lambda void null text
    (fun _ h => nomatch h)
    (fun _ _ hv hvs _ h => match h with
      | .head _ => hv
      | .tail _ h => hvs _ h)
    v

def isVoid : Value → Bool
  | .void => true
  | _ => false

mutual

/-- How deep lists and function bodies are nested in a value; an atom has depth 0. -/
def depth : Value → Nat
  | .list items => depthOfAll items + 1
  | .lambda _ body => depthOfAll body + 1
  | .number _ | .symbol _ | .boolean _ | .void | .null | .text _ => 0

/-- The greatest depth among some values. -/
def depthOfAll : List Value → Nat
  | [] => 0
  | v :: vs => max v.depth (depthOfAll vs)

end

mutual

/-- Whether lists and function bodies are nested in a value at most as deep as `bound` says. This is
settled at the first part that lies deeper, so that a deep value is found out soon even if its parts
recur in it very many times. -/
def isWithin : Value → (bound : Nat) → Bool
  | .list items, bound + 1 => allWithin items bound
  | .lambda _ body, bound + 1 => allWithin body bound
  | .list _, 0 | .lambda .., 0 => false
  | .number _, _ | .symbol _, _ | .boolean _, _ | .void, _ | .null, _ | .text _, _ => true

/-- Whether all of some values are nested at most as deep as `bound` says. -/
def allWithin : List Value → (bound : Nat) → Bool
  | [], _ => true
  | v :: vs, bound => v.isWithin bound && allWithin vs bound

end

/-- Whether a value counts as true where any value may be asked: all do but `false`, zero, the
empty list, the empty text and the two absences of a value. -/
def isTruthy : Value → Bool
  | .number n => n != 0
  | .boolean b => b
  | .list items => !items.isEmpty
  | .text content => !content.isEmpty
  | .void | .null => false
  | .symbol _ | .lambda .. => true

end Value

/-- Goes on inside `cost` frames out of `room`, if there are so many; what follows has the rest.
Displaying and comparing values take frames in this way. -/
def inside {α : Type} (cost room : Nat) (rest : (left : Nat) → Option α) : Option α :=
  if cost ≤ room then rest (room - cost) else none

/-- What takes `frames` frames by itself takes as many more as there are around it. -/
theorem inside_ite {α : Type} (cost frames room : Nat) (a : α) :
    inside cost room (fun left => if frames ≤ left then some a else none) =
      if frames + cost ≤ room then some a else none := by
  simp only [inside]
  by_cases h : frames + cost ≤ room
  · rw [if_pos h, if_pos (by omega), if_pos (by omega)]
  · rw [if_neg h]
    split
    · exact if_neg (by omega)
    · rfl

end DynLisp

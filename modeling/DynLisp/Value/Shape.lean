import DynLisp.Value.Basic

/-! # The shape of a tree

How deep a tree of lists is and how many lists, numbers and symbols it has. The lists that are
still to be visited are kept in a list of their own, so that deep trees need no deep recursion.
-/

namespace DynLisp

structure Shape where
  /-- The number of lists around the innermost element, the outermost list included. -/
  depth : Nat
  lists : Nat
  numbers : Nat
  symbols : Nat
  deriving Repr, DecidableEq

namespace Shape

def empty : Shape := ⟨0, 0, 0, 0⟩

/-- One more list, with the given number of lists around its elements. -/
def addList (shape : Shape) (depth : Nat) : Shape :=
  { shape with depth := max shape.depth depth, lists := shape.lists + 1 }

/-- Adds the elements that are still to be visited, each run of them with its depth. -/
def visit : List (Nat × List Value) → Shape → Shape
  | [], shape => shape
  | (_, []) :: pending, shape => visit pending shape
  | (depth, .list items :: rest) :: pending, shape =>
    visit ((depth + 1, items) :: (depth, rest) :: pending) (shape.addList (depth + 1))
  | (depth, .number _ :: rest) :: pending, shape =>
    visit ((depth, rest) :: pending) { shape with numbers := shape.numbers + 1 }
  | (depth, .symbol _ :: rest) :: pending, shape =>
    visit ((depth, rest) :: pending) { shape with symbols := shape.symbols + 1 }
  | (depth, _ :: rest) :: pending, shape => visit ((depth, rest) :: pending) shape
termination_by pending => pending.foldr (fun run size => sizeOf run.2 + size) 0
decreasing_by all_goals simp <;> omega

/-- The shape of the tree that a list is. -/
def ofList (items : List Value) : Shape :=
  visit [(0, [.list items])] empty

end Shape

end DynLisp

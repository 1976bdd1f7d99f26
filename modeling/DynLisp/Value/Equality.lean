import DynLisp.Value.Basic

/-! # Equality of values

Two values are the same when they are built alike, except that the truth values count as the
numbers one and zero, at any depth. Comparing values takes frames for each level of their nesting.

Values can be collected in a table that keeps the first of each kind. The table looks for a value by
its hash and then compares, so lists and functions, which have no hash, are refused.
-/

namespace DynLisp.Value

/-- The number that a truth value counts as. -/
def ofTruth (b : Bool) : Int := if b then 1 else 0

mutual

/-- Whether two values are the same. -/
def same : Value → Value → Bool
  | .number m, .number n => m == n
  | .number m, .boolean b => m == ofTruth b
  | .boolean b, .number n => ofTruth b == n
  | .boolean a, .boolean b => a == b
  | .symbol x, .symbol y => x == y
  | .text x, .text y => x == y
  | .list xs, .list ys => sameAll xs ys
  | .lambda params xs, .lambda params' ys => params == params' && sameAll xs ys
  | .void, .void => true
  | .null, .null => true
  | _, _ => false

/-- Whether two lists of values are as long as each other and the same one by one. -/
def sameAll : List Value → List Value → Bool
  | [], [] => true
  | x :: xs, y :: ys => x.same y && sameAll xs ys
  | _, _ => false

end

/-! ### Comparing in a number of frames -/

/-- The frames in which a value is compared: one, and one more for the values that have an equality
of their own. -/
def equalityFrames : Value → Nat
  | .symbol _ | .lambda .. | .void => 2
  | .number _ | .boolean _ | .list _ | .null | .text _ => 1

/-- Compares two lists in `room` frames. Lists of different lengths differ; else `elements` compares
what they hold. -/
def compareLists (xs ys : List Value) (room : Nat) (elements : (left : Nat) → Option Bool) :
    Option Bool :=
  inside 1 room fun left => if xs.length = ys.length then elements left else some false

mutual

/-- Whether two values are the same, if this can be found out in `room` frames. Functions compare
their parameters first and then their bodies. The frames are those of two values that share no parts
in memory; a part that they share is not gone into. -/
def sameIn? : Value → Value → (room : Nat) → Option Bool
  | .list xs, .list ys, room => compareLists xs ys room fun left => allSameIn? xs ys left
  | .lambda params xs, .lambda params' ys, room =>
    inside (equalityFrames (.lambda params xs)) room fun left =>
      if params = params' then compareLists xs ys left fun left => allSameIn? xs ys left
      else some false
  | v, w, room => inside (max v.equalityFrames w.equalityFrames) room fun _ => some (v.same w)

/-- Whether values are the same one by one, up to the end of the shorter list. The first two that
differ settle it. -/
def allSameIn? : List Value → List Value → (room : Nat) → Option Bool
  | x :: xs, y :: ys, room =>
    (x.sameIn? y room).bind fun b => if b then allSameIn? xs ys room else some false
  | [], _, _ | _ :: _, [], _ => some true

end

/-! ### Hashes -/

/-- The kinds of values that have parts and so no hash. -/
inductive Compound where
  | list
  | lambda
  deriving Repr, DecidableEq

def Compound.message : Compound → String
  | .list => "unhashable type: 'list'"
  | .lambda => "unhashable type: 'Lambda'"

/-- The hashes that are not the same in every process. -/
structure Hashing where
  text : String → Int
  null : Int
  /-- The hash of the kind of the absence of a value, which is that of the absence itself. -/
  void : Int

/-- The greatest prime of 61 bits, by which the hashes of numbers are reduced. -/
def hashModulus : Nat := 2305843009213693951

/-- The hash of a number: the remainder of its magnitude, with its sign. The hash -1 is taken, so -2
stands for it. -/
def numberHash (n : Int) : Int :=
  let remainder := n.sign * (n.natAbs % hashModulus : Nat)
  if remainder = -1 then -2 else remainder

/-- The hash of a value. A symbol has that of its name, and a truth value that of the number it
counts as. -/
def hash? (hashing : Hashing) : Value → Except Compound Int
  | .number n => .ok (numberHash n)
  | .boolean b => .ok (numberHash (ofTruth b))
  | .symbol name => .ok (hashing.text name)
  | .text content => .ok (hashing.text content)
  | .void => .ok hashing.void
  | .null => .ok hashing.null
  | .list _ => .error .list
  | .lambda .. => .error .lambda

/-- A value in a table, with its hash. -/
structure Entry where
  hash : Int
  value : Value

/-- Whether an entry is of the given hash and holds the same value. -/
def Entry.holds (entry : Entry) (hash : Int) (v : Value) : Bool :=
  entry.hash == hash && entry.value.same v

/-- Puts a value at the end of a table, unless an entry holds it already. -/
def insert (hashing : Hashing) (table : List Entry) (v : Value) : Except Compound (List Entry) :=
  (v.hash? hashing).map fun hash =>
    if table.any (·.holds hash v) then table else table ++ [⟨hash, v⟩]

/-- The first of each kind of the same values, in order, as a table collects them. The first list or
function among them is refused. -/
def distinct (hashing : Hashing) (vs : List Value) : Except Compound (List Value) :=
  (vs.foldlM (insert hashing) []).map (·.map Entry.value)

end DynLisp.Value

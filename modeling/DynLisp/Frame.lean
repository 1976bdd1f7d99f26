import DynLisp.Value.Inspect

/-! # Frames

The names that one environment binds itself, in the order in which they were first bound. Binding a
name again changes its value and keeps its place.
-/

namespace DynLisp

structure Frame where
  entries : List (String × Value)
  deriving Repr, Inhabited

namespace Frame

def empty : Frame := ⟨[]⟩

def names (frame : Frame) : List String := frame.entries.map Prod.fst

/-- What a name is bound to among some entries. -/
def findEntry? (name : String) : List (String × Value) → Option Value
  | [] => none
  | (key, v) :: rest => if key = name then some v else findEntry? name rest

/-- What a frame binds a name to. -/
def find? (frame : Frame) (name : String) : Option Value := findEntry? name frame.entries

/-- Binds a name among some entries: in place if it is there, at the end if not. -/
def setEntry (name : String) (v : Value) : List (String × Value) → List (String × Value)
  | [] => [(name, v)]
  | (key, w) :: rest => if key = name then (key, v) :: rest else (key, w) :: setEntry name v rest

/-- Binds a name. -/
def set (frame : Frame) (name : String) (v : Value) : Frame :=
  ⟨setEntry name v frame.entries⟩

theorem findEntry?_setEntry (name key : String) (v : Value) (entries : List (String × Value)) :
    findEntry? key (setEntry name v entries) =
      if key = name then some v else findEntry? key entries := by
  induction entries with
  | nil => simp [setEntry, findEntry?, eq_comm]
  | cons entry rest ih =>
      obtain ⟨k, w⟩ := entry
      by_cases hk : k = name
      · by_cases h : name = key
        · simp [setEntry, findEntry?, hk, h]
        · simp [setEntry, findEntry?, hk, h, Ne.symm h]
      · by_cases h : k = key
        · have hn : key ≠ name := h ▸ hk
          simp [setEntry, findEntry?, h, hn]
        · simp [setEntry, findEntry?, hk, h, ih]

/-- After a name is bound it has its new value and every other name its old one. -/
@[simp]
theorem find?_set (frame : Frame) (name key : String) (v : Value) :
    (frame.set name v).find? key = if key = name then some v else frame.find? key :=
  findEntry?_setEntry name key v frame.entries

/-- The frame that binds parameters to arguments in order, as far as both go. Of a parameter that
occurs twice the last argument counts. -/
def ofParameters (params : List String) (args : List Value) : Frame :=
  (params.zip args).foldl (fun frame entry => frame.set entry.1 entry.2) empty

/-- Whether the values that a frame binds are nested at most as deep as `bound` says. -/
def isWithin (frame : Frame) (bound : Nat) : Bool := frame.entries.all (·.2.isWithin bound)

/-- The entries of a frame in braces. -/
def inspect (frame : Frame) : String :=
  "\x7b" ++ ", ".intercalate (frame.entries.map fun (name, v) => name ++ ": " ++ v.inspect) ++
    "\x7d"

end Frame

end DynLisp

import DynLisp.Frame

/-! # Scopes

A scope is a frame and the frames around it, from the inside out. A name means what the innermost
frame that holds it binds it to; definitions go to the innermost frame.
-/

namespace DynLisp

structure Scope where
  frame : Frame
  outer : List Frame
  deriving Repr, Inhabited

namespace Scope

/-- A scope of one frame. -/
def ofFrame (frame : Frame) : Scope := ⟨frame, []⟩

/-- All frames of a scope, from the inside out. -/
def frames (scope : Scope) : List Frame := scope.frame :: scope.outer

/-- What a name is bound to in the innermost frame that holds it. -/
def find? (scope : Scope) (name : String) : Option Value :=
  scope.frames.findSome? (·.find? name)

/-- The value of a name. A name bound to `null` has none, even if a frame further out binds it to
something else. -/
def value? (scope : Scope) (name : String) : Option Value :=
  match scope.find? name with
  | some .null => none
  | binding => binding

/-- Binds a name in the innermost frame. -/
def define (scope : Scope) (name : String) (v : Value) : Scope :=
  { scope with frame := scope.frame.set name v }

/-- The scope inside `scope` whose innermost frame is `frame`. -/
def enter (scope : Scope) (frame : Frame) : Scope := ⟨frame, scope.frames⟩

/-- The scope around the innermost frame; a scope of one frame has none and is left as it is. -/
def leave (scope : Scope) : Scope :=
  match scope.outer with
  | [] => scope
  | frame :: outer => ⟨frame, outer⟩

@[simp]
theorem leave_enter (scope : Scope) (frame : Frame) : (scope.enter frame).leave = scope := rfl

@[simp]
theorem frames_define (scope : Scope) (name : String) (v : Value) :
    (scope.define name v).frames = scope.frame.set name v :: scope.outer := rfl

/-- Whether the values that a scope binds are nested at most as deep as `bound` says. -/
def isWithin (scope : Scope) (bound : Nat) : Bool := scope.frames.all (·.isWithin bound)

/-- The innermost frame as text, with a mark if there are frames around it. -/
def inspectFrame (scope : Scope) : String :=
  scope.frame.inspect ++ if scope.outer.isEmpty then "" else " -> ..."

/-- All frames as text, from the inside out. -/
def inspect (scope : Scope) : String :=
  "<Environment chain: " ++ " -> ".intercalate (scope.frames.map Frame.inspect) ++ ">"

end Scope

end DynLisp

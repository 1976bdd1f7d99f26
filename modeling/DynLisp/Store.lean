import DynLisp.Scope

/-! # Stores of environments

Environments with a number each, in the order in which they were made. Each has a frame of its own
and, the first one apart, an environment that it was made in. The scope of an environment is its
frame with the frames around it, out to the first environment.
-/

namespace DynLisp

/-- One environment: its own frame and the number of the environment around it. -/
structure Node where
  frame : Frame
  parent : Option Nat
  deriving Repr, Inhabited

structure Store where
  nodes : List Node
  deriving Repr, Inhabited

namespace Store

/-- A store of one environment that binds nothing. -/
def fresh : Store := ⟨[⟨.empty, none⟩]⟩

/-- The number that the next environment will have. -/
def size (store : Store) : Nat := store.nodes.length

/-- The frame of an environment alone. -/
def frame? (store : Store) (k : Nat) : Option Frame :=
  store.nodes[k]?.map Node.frame

/-- At most `count` environments from `k` outward. -/
def pathOf (store : Store) : (count : Nat) → (k : Nat) → List Nat
  | 0, _ => []
  | count + 1, k =>
    match store.nodes[k]? with
    | none => []
    | some ⟨_, none⟩ => [k]
    | some ⟨_, some parent⟩ => k :: store.pathOf count parent

/-- The environments from `k` outward. An environment is made after the one around it, so there are
no more than `k + 1` of them. -/
def path (store : Store) (k : Nat) : List Nat := store.pathOf (k + 1) k

/-- The scope of an environment. -/
def scope? (store : Store) (k : Nat) : Option Scope :=
  match (store.path k).filterMap store.frame? with
  | [] => none
  | frame :: outer => some ⟨frame, outer⟩

/-- Makes an environment with the given frame inside environment `k`. -/
def add (store : Store) (k : Nat) (frame : Frame) : Store :=
  ⟨store.nodes ++ [⟨frame, some k⟩]⟩

/-- Replaces the frame of environment `k`. -/
def setFrame (store : Store) (k : Nat) (frame : Frame) : Store :=
  ⟨store.nodes.modify k fun node => { node with frame }⟩

/-- Binds a name in environment `k` itself. -/
def set (store : Store) (k : Nat) (name : String) (v : Value) : Store :=
  ⟨store.nodes.modify k fun node => { node with frame := node.frame.set name v }⟩

/-- The value of a name as seen from environment `k`. -/
def value? (store : Store) (k : Nat) (name : String) : Option Value :=
  (store.scope? k).bind (·.value? name)

/-- Replaces the frames of the environments from `k` outward by those of a scope. -/
def setScope (store : Store) (k : Nat) (scope : Scope) : Store :=
  ((store.path k).zip scope.frames).foldl (fun store entry => store.setFrame entry.1 entry.2) store

/-- Lets `act` work on the scope of environment `k` and keeps the scope that it leaves. -/
def inScope {α : Type} (store : Store) (k : Nat) (act : Scope → α × Scope) : Option (α × Store) :=
  (store.scope? k).map fun scope =>
    let (a, scope) := act scope
    (a, store.setScope k scope)

end Store

end DynLisp

import DynLisp.Numeral
import DynLisp.Text.Quoted
import DynLisp.Value.Basic

/-! # How values are displayed

The text of a value as it is printed and as it stands in error messages. A list of numbers, symbols
and lists is displayed as source text for it. A function is displayed with the elements of its body
side by side, so its display is no source text for it.

Values are displayed level by level, and each level takes frames. A value that is nested too deeply
for the frames there are has no text.
-/

namespace DynLisp.Value

/-- The text of a list whose elements have the given texts. -/
def listText (texts : List String) : String := "(" ++ " ".intercalate texts ++ ")"

/-- The text of a function with the given parameters and texts of the elements of its body. -/
def functionText (params texts : List String) : String :=
  "Lambda(" ++ " ".intercalate params ++ ")" ++ String.join (texts.map (" " ++ ·))

mutual

/-- The text of a value, whatever the number of frames it takes. -/
def display : Value → String
  | .number n => Numeral.decimal n
  | .symbol name => name
  | .boolean b => if b then "true" else "false"
  | .list items => listText (displayAll items)
  | .lambda params body => functionText params (displayAll body)
  | .void => "Void"
  | .null => "None"
  | .text content => Text.quoted content

/-- The texts of some values, in order. -/
def displayAll : List Value → List String
  | [] => []
  | v :: vs => v.display :: displayAll vs

end

theorem displayAll_eq_map (vs : List Value) : displayAll vs = vs.map display := by
  induction vs with
  | nil => rfl
  | cons v vs ih => simp [displayAll, ih]

/-! ### Displaying in a number of frames -/

/-- The frames around the elements of a list or of the body of a function: one for the value itself,
one that joins the texts of the elements and one that goes through the elements. -/
def levelFrames : Nat := 3

/-- The frames of a symbol: one for the symbol and one in which it is asked for its name. -/
def symbolFrames : Nat := 2

mutual

/-- The text of a value, if it can be made in `room` frames. -/
def displayIn? : Value → (room : Nat) → Option String
  | .number n, room => inside 1 room fun _ => some (Numeral.decimal n)
  | .symbol name, room => inside symbolFrames room fun _ => some name
  | .boolean b, room => inside 1 room fun _ => some (if b then "true" else "false")
  | .list items, room => inside levelFrames room fun left => (displayAllIn? items left).map listText
  | .lambda params body, room =>
    inside levelFrames room fun left => (displayAllIn? body left).map (functionText params)
  | .void, room => inside 1 room fun _ => some "Void"
  | .null, room => inside 1 room fun _ => some "None"
  | .text content, room => inside 1 room fun _ => some (Text.quoted content)

/-- The texts of some values, in order and each made in `room` frames. The first value without a
text ends it. -/
def displayAllIn? : List Value → (room : Nat) → Option (List String)
  | [], _ => some []
  | v :: vs, room =>
    (v.displayIn? room).bind fun text => (displayAllIn? vs room).map (text :: ·)

end

mutual

/-- The number of frames that displaying a value takes. -/
def displayFrames : Value → Nat
  | .list items => framesOfAll items + levelFrames
  | .lambda _ body => framesOfAll body + levelFrames
  | .symbol _ => symbolFrames
  | .number _ | .boolean _ | .void | .null | .text _ => 1

/-- The greatest number of frames that one of some values takes. -/
def framesOfAll : List Value → Nat
  | [] => 0
  | v :: vs => max v.displayFrames (framesOfAll vs)

end

mutual

/-- A value has its text in the frames that it takes, and in fewer it has none. -/
theorem displayIn?_eq_ite : ∀ (v : Value) (room : Nat),
    v.displayIn? room = if v.displayFrames ≤ room then some v.display else none
  | .list items, room => by
    simp only [displayIn?, displayAllIn?_eq_ite items, apply_ite (Option.map listText),
      Option.map_some, Option.map_none, inside_ite]
    rfl
  | .lambda params body, room => by
    simp only [displayIn?, displayAllIn?_eq_ite body, apply_ite (Option.map (functionText params)),
      Option.map_some, Option.map_none, inside_ite]
    rfl
  | .number _, _ | .symbol _, _ | .boolean _, _ | .void, _ | .null, _ | .text _, _ => rfl

theorem displayAllIn?_eq_ite : ∀ (vs : List Value) (room : Nat),
    displayAllIn? vs room = if framesOfAll vs ≤ room then some (displayAll vs) else none
  | [], _ => by simp [displayAllIn?, framesOfAll, displayAll]
  | v :: vs, room => by
    rw [displayAllIn?, displayIn?_eq_ite v room, displayAllIn?_eq_ite vs room]
    simp only [framesOfAll, displayAll, Nat.max_le]
    by_cases hv : v.displayFrames ≤ room <;> by_cases hvs : framesOfAll vs ≤ room <;>
      simp [hv, hvs]

end

mutual

/-- Each level of the nesting of a value takes a frame at least. -/
theorem depth_lt_displayFrames : ∀ v : Value, v.depth < v.displayFrames
  | .list items => by
    have h := depthOfAll_le_framesOfAll items
    simp only [depth, displayFrames, levelFrames]
    omega
  | .lambda _ body => by
    have h := depthOfAll_le_framesOfAll body
    simp only [depth, displayFrames, levelFrames]
    omega
  | .number _ | .symbol _ | .boolean _ | .void | .null | .text _ => by
    simp [depth, displayFrames, symbolFrames]

theorem depthOfAll_le_framesOfAll : ∀ vs : List Value, depthOfAll vs ≤ framesOfAll vs
  | [] => Nat.le_refl 0
  | v :: vs => by
    have hv := depth_lt_displayFrames v
    have hvs := depthOfAll_le_framesOfAll vs
    simp only [depthOfAll, framesOfAll]
    omega

end

/-- A value that is nested as deep as there are frames, or deeper, has no text. -/
theorem displayIn?_of_le_depth {v : Value} {room : Nat} (h : room ≤ v.depth) :
    v.displayIn? room = none := by
  rw [displayIn?_eq_ite, if_neg]
  exact Nat.not_le.mpr (Nat.lt_of_le_of_lt h v.depth_lt_displayFrames)

/-- What has no text in some frames has none in fewer. -/
theorem displayIn?_eq_none_anti {v : Value} {room room' : Nat} (h : room' ≤ room)
    (hv : v.displayIn? room = none) : v.displayIn? room' = none := by
  rw [displayIn?_eq_ite] at hv ⊢
  have hroom : ¬ v.displayFrames ≤ room := by
    simpa using hv
  exact if_neg fun hle => hroom (Nat.le_trans hle h)

/-- Whether a value can be displayed in `room` frames. -/
def canDisplayIn (v : Value) (room : Nat) : Bool := (v.displayIn? room).isSome

theorem canDisplayIn_iff {v : Value} {room : Nat} :
    v.canDisplayIn room = true ↔ v.displayFrames ≤ room := by
  rw [canDisplayIn, displayIn?_eq_ite]
  split <;> simp [*]

/-- What can be displayed in some frames can be displayed in more. -/
theorem canDisplayIn_mono {v : Value} {room room' : Nat} (h : room ≤ room')
    (hv : v.canDisplayIn room = true) : v.canDisplayIn room' = true :=
  canDisplayIn_iff.mpr (Nat.le_trans (canDisplayIn_iff.mp hv) h)

/-- A function on several lines: the parameters one by one, then the elements of the body. -/
def lambdaLines (params : List String) (body : List Value) : List String :=
  "Lambda(" :: params.map (· ++ " ") ++ ")" :: (body.map fun v => " " ++ v.display)

end DynLisp.Value

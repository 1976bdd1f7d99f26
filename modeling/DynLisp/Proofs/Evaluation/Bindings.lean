import DynLisp.Scope

/-! # What scopes bind

A property of all values that a scope binds is kept when a name is bound to a value that has the
property, when a frame of such values is entered, and when it is left. -/

namespace DynLisp

variable {P : Value → Prop} {v : Value} {name : String}

namespace Frame

/-- All values that a frame binds have a property. -/
def Binds (P : Value → Prop) (frame : Frame) : Prop := ∀ entry ∈ frame.entries, P entry.2

theorem binds_empty : empty.Binds P := by
  simp [Binds, empty]

theorem eq_or_mem_of_mem_setEntry {entries : List (String × Value)} {entry : String × Value}
    (h : entry ∈ setEntry name v entries) : entry.2 = v ∨ entry ∈ entries := by
  induction entries with
  | nil => simp_all [setEntry]
  | cons first rest ih =>
      obtain ⟨key, w⟩ := first
      rw [setEntry] at h
      split at h
      · rcases List.mem_cons.mp h with rfl | h
        · exact .inl rfl
        · exact .inr (List.mem_cons_of_mem _ h)
      · rcases List.mem_cons.mp h with rfl | h
        · exact .inr List.mem_cons_self
        · exact (ih h).imp_right (List.mem_cons_of_mem _)

theorem Binds.set {frame : Frame} (h : frame.Binds P) (hv : P v) : (frame.set name v).Binds P := by
  intro entry he
  rcases eq_or_mem_of_mem_setEntry he with rfl | he
  · exact hv
  · exact h entry he

theorem Binds.foldl_set {frame : Frame} (h : frame.Binds P) {entries : List (String × Value)}
    (he : ∀ entry ∈ entries, P entry.2) :
    (entries.foldl (fun frame entry => frame.set entry.1 entry.2) frame).Binds P := by
  induction entries generalizing frame with
  | nil => exact h
  | cons entry entries ih =>
      obtain ⟨hv, hrest⟩ := List.forall_mem_cons.mp he
      exact ih (h.set hv) hrest

theorem binds_ofParameters {args : List Value} (params : List String) (h : ∀ v ∈ args, P v) :
    (ofParameters params args).Binds P :=
  binds_empty.foldl_set fun _ he => h _ (List.of_mem_zip he).2

theorem Binds.of_find? {frame : Frame} (h : frame.Binds P) (hv : frame.find? name = some v) :
    P v := by
  obtain ⟨entries⟩ := frame
  induction entries with
  | nil => simp [find?, findEntry?] at hv
  | cons entry entries ih =>
      obtain ⟨hentry, hrest⟩ := List.forall_mem_cons.mp h
      simp only [find?, findEntry?] at hv ih
      split at hv
      · exact Option.some.inj hv ▸ hentry
      · exact ih hrest hv

end Frame

namespace Scope

variable {scope : Scope} {frame : Frame}

/-- All values that the frames of a scope bind have a property. -/
def Binds (P : Value → Prop) (scope : Scope) : Prop := ∀ frame ∈ scope.frames, frame.Binds P

theorem Binds.define (h : scope.Binds P) (hv : P v) : (scope.define name v).Binds P := by
  obtain ⟨hframe, houter⟩ := List.forall_mem_cons.mp h
  exact List.forall_mem_cons.mpr ⟨hframe.set hv, houter⟩

theorem Binds.enter (h : scope.Binds P) (hf : frame.Binds P) : (scope.enter frame).Binds P :=
  List.forall_mem_cons.mpr ⟨hf, h⟩

theorem Binds.leave (h : scope.Binds P) : scope.leave.Binds P := by
  obtain ⟨frame, outer⟩ := scope
  cases outer with
  | nil => exact h
  | cons next outer => exact (List.forall_mem_cons.mp h).2

theorem value?_eq_some_iff :
    scope.value? name = some v ↔ scope.find? name = some v ∧ v ≠ .null := by
  unfold value?
  split
  · simp_all
  · rename_i hne
    refine ⟨fun h => ⟨h, ?_⟩, fun h => h.1⟩
    rintro rfl
    exact hne h

theorem Binds.of_value? (h : scope.Binds P) (hv : scope.value? name = some v) : P v := by
  obtain ⟨frame, hframe, hfind⟩ := List.exists_of_findSome?_eq_some (value?_eq_some_iff.mp hv).1
  exact (h frame hframe).of_find? hfind

/-! ### Lookup -/

theorem find?_eq_or (scope : Scope) (key : String) :
    scope.find? key = (scope.frame.find? key).or (scope.outer.findSome? (·.find? key)) := by
  rw [find?, frames, List.findSome?_cons]
  cases scope.frame.find? key <;> rfl

theorem find?_define (scope : Scope) (name key : String) (v : Value) :
    (scope.define name v).find? key = if key = name then some v else scope.find? key := by
  rw [find?_eq_or, find?_eq_or, define, Frame.find?_set]
  split <;> rfl

theorem find?_enter (scope : Scope) (frame : Frame) (key : String) :
    (scope.enter frame).find? key = (frame.find? key).or (scope.find? key) :=
  find?_eq_or (scope.enter frame) key

theorem value?_congr {other : Scope} {key : String} (h : scope.find? name = other.find? key) :
    scope.value? name = other.value? key := by
  simp only [value?, h]

theorem value?_define_of_ne (scope : Scope) {key : String} (v : Value) (h : key ≠ name) :
    (scope.define name v).value? key = scope.value? key := by
  apply value?_congr
  rw [find?_define, if_neg h]

theorem value?_enter_of_none (scope : Scope) {key : String} (h : frame.find? key = none) :
    (scope.enter frame).value? key = scope.value? key := by
  apply value?_congr
  rw [find?_enter, h, Option.none_or]

end Scope

end DynLisp

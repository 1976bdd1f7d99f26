import DynLisp.Proofs.Evaluation.Locality
import Mathlib.Data.List.Nodup

/-! # The names of frames

A frame has its names in the order in which they were first bound: a name that is bound again keeps
its place and a new one comes last. Definitions therefore take no name away. The frame of a call has
the parameters of the function, each one once. -/

namespace DynLisp

namespace Frame

variable {frame next last : Frame} {name : String} {v : Value}

theorem map_fst_setEntry (name : String) (v : Value) (entries : List (String × Value)) :
    (setEntry name v entries).map Prod.fst =
      if name ∈ entries.map Prod.fst then entries.map Prod.fst
      else entries.map Prod.fst ++ [name] := by
  induction entries with
  | nil => simp [setEntry]
  | cons entry rest ih =>
      obtain ⟨key, w⟩ := entry
      by_cases hk : key = name
      · simp [setEntry, hk]
      · simp only [setEntry, if_neg hk, List.map_cons, ih, List.mem_cons, Ne.symm hk, false_or]
        split
        · rfl
        · rfl

/-- A name that is bound again keeps its place and a new one comes last. -/
theorem names_set (frame : Frame) (name : String) (v : Value) :
    (frame.set name v).names =
      if name ∈ frame.names then frame.names else frame.names ++ [name] :=
  map_fst_setEntry name v frame.entries

theorem find?_eq_none_iff : frame.find? name = none ↔ name ∉ frame.names := by
  obtain ⟨entries⟩ := frame
  induction entries with
  | nil => simp [find?, findEntry?, names]
  | cons entry rest ih =>
      obtain ⟨key, w⟩ := entry
      simp only [find?, names] at ih
      by_cases hk : key = name
      · simp [find?, findEntry?, names, hk]
      · simp [find?, findEntry?, names, hk, Ne.symm hk, ih]

/-! ### Growth -/

/-- A frame after which no name has been lost or moved, and none is there twice if none was. -/
structure GrowsTo (frame next : Frame) : Prop where
  names_prefix : frame.names <+: next.names
  nodup_names : frame.names.Nodup → next.names.Nodup

theorem GrowsTo.refl (frame : Frame) : frame.GrowsTo frame := ⟨List.prefix_rfl, id⟩

theorem GrowsTo.trans (h : frame.GrowsTo next) (h' : next.GrowsTo last) : frame.GrowsTo last :=
  ⟨h.names_prefix.trans h'.names_prefix, h'.nodup_names ∘ h.nodup_names⟩

theorem growsTo_set (frame : Frame) (name : String) (v : Value) :
    frame.GrowsTo (frame.set name v) := by
  by_cases h : name ∈ frame.names
  · constructor <;> simp [names_set, h]
  · constructor
    · simp [names_set, h]
    · intro hn
      rw [names_set, if_neg h]
      exact hn.append (List.nodup_singleton name) (by simpa using h)

theorem GrowsTo.mem_names (h : frame.GrowsTo next) (hn : name ∈ frame.names) :
    name ∈ next.names :=
  h.names_prefix.subset hn

/-! ### Parameters -/

theorem names_foldl_set (frame : Frame) (entries : List (String × Value)) :
    (entries.foldl (fun frame entry => frame.set entry.1 entry.2) frame).names =
      frame.names ++ ((entries.map Prod.fst).filter (· ∉ frame.names)).eraseDups := by
  induction entries generalizing frame with
  | nil => simp
  | cons entry entries ih =>
      obtain ⟨key, w⟩ := entry
      rw [List.foldl_cons, ih, names_set]
      by_cases hk : key ∈ frame.names
      · simp [hk]
      · -- of the names that follow those count that are neither there before nor `key`
        have hfilter : ((entries.map Prod.fst).filter (· ∉ frame.names)).filter (!· == key) =
            (entries.map Prod.fst).filter (· ∉ frame.names ++ [key]) := by
          rw [List.filter_filter]
          refine List.filter_congr fun name _ => ?_
          simp [Bool.beq_eq_decide_eq, Bool.and_comm]
        have hkey : ((((key, w) :: entries).map Prod.fst).filter (· ∉ frame.names)) =
            key :: (entries.map Prod.fst).filter (· ∉ frame.names) := by
          simp [hk]
        rw [if_neg hk, hkey, List.eraseDups_cons, hfilter, List.append_assoc,
          List.singleton_append]

theorem find?_foldl_set_of_not_mem {entries : List (String × Value)}
    (h : name ∉ entries.map Prod.fst) (frame : Frame) :
    (entries.foldl (fun frame entry => frame.set entry.1 entry.2) frame).find? name =
      frame.find? name := by
  induction entries generalizing frame with
  | nil => rfl
  | cons entry entries ih =>
      obtain ⟨hne, hrest⟩ : name ≠ entry.1 ∧ name ∉ entries.map Prod.fst := by
        simpa only [List.map_cons, List.mem_cons, not_or] using h
      rw [List.foldl_cons, ih hrest, find?_set, if_neg hne]

/-- The last of several bindings of a name counts. -/
theorem find?_foldl_set {entries : List (String × Value)} {i : Nat}
    (hi : entries[i]? = some (name, v))
    (hlast : ∀ j, i < j → (entries.map Prod.fst)[j]? ≠ some name) (frame : Frame) :
    (entries.foldl (fun frame entry => frame.set entry.1 entry.2) frame).find? name = some v := by
  induction entries generalizing frame i with
  | nil => simp at hi
  | cons entry entries ih =>
      rw [List.foldl_cons]
      cases i with
      | zero =>
          obtain rfl : entry = (name, v) := by simpa using hi
          have hrest : name ∉ entries.map Prod.fst := by
            intro hmem
            obtain ⟨j, hj⟩ := List.mem_iff_getElem?.mp hmem
            exact hlast (j + 1) (Nat.succ_pos j) hj
          rw [find?_foldl_set_of_not_mem hrest, find?_set, if_pos rfl]
      | succ i =>
          exact ih hi (fun j hj => hlast (j + 1) (Nat.succ_lt_succ hj)) _

variable {params : List String} {args : List Value}

/-- The frame of a call has the parameters in the order in which they first occur. -/
theorem names_ofParameters (h : params.length ≤ args.length) :
    (ofParameters params args).names = params.eraseDups := by
  rw [ofParameters, names_foldl_set, List.map_fst_zip h]
  simp [names, empty]

theorem find?_ofParameters (h : params.length ≤ args.length) {i : Nat}
    (hi : params[i]? = some name) (hlast : ∀ j, i < j → params[j]? ≠ some name) :
    (ofParameters params args).find? name = args[i]? := by
  obtain ⟨hlt, rfl⟩ := List.getElem?_eq_some_iff.mp hi
  have harg : args[i]? = some args[i] := List.getElem?_eq_getElem (by omega)
  rw [harg]
  refine find?_foldl_set (i := i) ?_ ?_ empty
  · simp [List.getElem?_zip_eq_some, harg]
  · rwa [List.map_fst_zip h]

/-- Arguments beyond the last parameter make no difference. -/
theorem ofParameters_take (params : List String) (args : List Value) :
    ofParameters params (args.take params.length) = ofParameters params args := by
  have hzip : params.zip (args.take params.length) = params.zip args := by
    have hlength : (params.zip args).length ≤ params.length := by
      rw [List.length_zip]
      exact Nat.min_le_left _ _
    calc params.zip (args.take params.length)
        = (params.zip args).take params.length := by
          rw [List.zip_eq_zipWith, List.zip_eq_zipWith, List.take_zipWith, List.take_length]
      _ = params.zip args := List.take_of_length_le hlength
  rw [ofParameters, ofParameters, hzip]

end Frame

end DynLisp

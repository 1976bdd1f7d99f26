import DynLisp.Value.Equality
import Mathlib.Data.List.Forall2
import Mathlib.Data.List.Induction

/-! # Equality of values

Two values are the same exactly if they are equal once numbers stand in the place of all truth
values. So sameness is an equivalence, and it is what comparing two values in enough frames finds
out. Values that are the same have the same hash, so a table that looks for a value by its hash
misses none: it keeps one value of each class, the one that comes first. -/

namespace DynLisp.Value

mutual

/-- The value with numbers in the place of truth values, at any depth. -/
def plain : Value → Value
  | .boolean b => .number (ofTruth b)
  | .list items => .list (plainAll items)
  | .lambda params body => .lambda params (plainAll body)
  | .number n => .number n
  | .symbol name => .symbol name
  | .void => .void
  | .null => .null
  | .text content => .text content

def plainAll : List Value → List Value
  | [] => []
  | v :: vs => v.plain :: plainAll vs

end

theorem ofTruth_inj {a b : Bool} : ofTruth a = ofTruth b ↔ a = b := by
  cases a <;> cases b <;> decide

theorem sameAll_iff {vs : List Value} (h : ∀ v ∈ vs, ∀ w, v.same w = true ↔ v.plain = w.plain)
    (ws : List Value) : sameAll vs ws = true ↔ plainAll vs = plainAll ws := by
  induction vs generalizing ws with
  | nil => cases ws <;> simp [sameAll, plainAll]
  | cons v vs ih =>
      obtain ⟨hv, hvs⟩ := List.forall_mem_cons.mp h
      cases ws with
      | nil => simp [sameAll, plainAll]
      | cons w ws => simp [sameAll, plainAll, hv, ih hvs]

/-- Two values are the same if they differ at most in truth values and the numbers they count as. -/
theorem same_iff_plain_eq (v w : Value) : v.same w = true ↔ v.plain = w.plain := by
  induction v using Value.induction generalizing w with
  | number n => cases w <;> simp [same, plain]
  | boolean b => cases w <;> simp [same, plain, ofTruth_inj]
  | symbol name => cases w <;> simp [same, plain]
  | text content => cases w <;> simp [same, plain]
  | void => cases w <;> simp [same, plain]
  | null => cases w <;> simp [same, plain]
  | list items ih => cases w <;> simp [same, plain, sameAll_iff ih]
  | lambda params body ih => cases w <;> simp [same, plain, sameAll_iff ih]

theorem same_refl (v : Value) : v.same v = true :=
  (same_iff_plain_eq v v).mpr rfl

theorem same_symm {v w : Value} (h : v.same w = true) : w.same v = true := by
  rw [same_iff_plain_eq] at h ⊢
  exact h.symm

theorem same_trans {u v w : Value} (h : u.same v = true) (h' : v.same w = true) :
    u.same w = true := by
  rw [same_iff_plain_eq] at h h' ⊢
  exact h.trans h'

theorem sameAll_iff_forall₂ (vs ws : List Value) :
    sameAll vs ws = true ↔ List.Forall₂ (fun v w => v.same w = true) vs ws := by
  induction vs generalizing ws with
  | nil => cases ws <;> simp [sameAll]
  | cons v vs ih => cases ws <;> simp [sameAll, ih]

/-- What equality of values has to be like. -/
structure IsEquality (same : Value → Value → Prop) : Prop where
  equivalence : Equivalence same
  /-- Values of one kind are compared by what they hold; two kinds have no value in common, numbers
  and truth values apart. -/
  iff_plain : ∀ v w, same v w ↔ v.plain = w.plain
  number_boolean : ∀ n b, same (.number n) (.boolean b) ↔ n = if b then 1 else 0
  list : ∀ vs ws, same (.list vs) (.list ws) ↔ List.Forall₂ same vs ws
  lambda : ∀ params params' vs ws,
    same (.lambda params vs) (.lambda params' ws) ↔ params = params' ∧ List.Forall₂ same vs ws
  not_symbol_text : ∀ name content, ¬ same (.symbol name) (.text content)
  void : ∀ v, same .void v ↔ v = .void

theorem isEquality_same : IsEquality fun v w => v.same w = true where
  equivalence := ⟨same_refl, same_symm, same_trans⟩
  iff_plain := same_iff_plain_eq
  number_boolean n b := by simp [same, ofTruth]
  list vs ws := by rw [same, sameAll_iff_forall₂]
  lambda params params' vs ws := by simp [same, sameAll_iff_forall₂]
  not_symbol_text name content := by simp [same]
  void v := by cases v <;> simp [same]

/-! ### Comparing in a number of frames -/

/-- An answer that takes frames: it is `a` if there are enough, and there is none if there are
fewer. -/
def AnswersAs {α : Type} (answer : (room : Nat) → Option α) (a : α) : Prop :=
  ∃ frames, ∀ room, answer room = if frames ≤ room then some a else none

theorem answersAs_some {α : Type} (a : α) : AnswersAs (fun _ => some a) a :=
  ⟨0, fun room => (if_pos (Nat.zero_le room)).symm⟩

theorem AnswersAs.inside {α : Type} {rest : Nat → Option α} {a : α} (h : AnswersAs rest a)
    (cost : Nat) : AnswersAs (fun room => inside cost room rest) a := by
  obtain ⟨frames, h⟩ := h
  obtain rfl : rest = fun room => if frames ≤ room then some a else none := funext h
  exact ⟨frames + cost, fun room => inside_ite cost frames room a⟩

/-- Two questions in a row, the second of which is asked only if the first is answered by yes. -/
theorem AnswersAs.and {first second : Nat → Option Bool} {b c : Bool} (hb : AnswersAs first b)
    (hc : AnswersAs second c) :
    AnswersAs (fun room => (first room).bind fun b => if b then second room else some false)
      (b && c) := by
  obtain ⟨frames, hb⟩ := hb
  obtain ⟨frames', hc⟩ := hc
  simp only [hb, hc]
  cases b with
  | false =>
      refine ⟨frames, fun room => ?_⟩
      by_cases h : frames ≤ room <;> simp [h]
  | true =>
      refine ⟨max frames frames', fun room => ?_⟩
      simp only [Nat.max_le]
      by_cases h : frames ≤ room <;> by_cases h' : frames' ≤ room <;> simp [h, h']

theorem sameAll_of_length_ne {vs ws : List Value} (h : vs.length ≠ ws.length) :
    sameAll vs ws = false := by
  rw [Bool.eq_false_iff, Ne, sameAll_iff_forall₂]
  exact fun hall => h hall.length_eq

theorem answersAs_allSameIn? {vs ws : List Value}
    (h : ∀ v ∈ vs, ∀ w, AnswersAs (v.sameIn? w) (v.same w)) (hl : vs.length = ws.length) :
    AnswersAs (allSameIn? vs ws) (sameAll vs ws) := by
  induction vs generalizing ws with
  | nil =>
      obtain rfl := List.length_eq_zero_iff.mp hl.symm
      exact answersAs_some true
  | cons v vs ih =>
      obtain ⟨hv, hvs⟩ := List.forall_mem_cons.mp h
      cases ws with
      | nil => cases hl
      | cons w ws => exact (hv w).and (ih hvs (Nat.succ.inj hl))

theorem answersAs_compareLists {vs : List Value}
    (h : ∀ v ∈ vs, ∀ w, AnswersAs (v.sameIn? w) (v.same w)) (ws : List Value) :
    AnswersAs (fun room => compareLists vs ws room (allSameIn? vs ws)) (sameAll vs ws) := by
  by_cases hl : vs.length = ws.length
  · simp only [compareLists, hl, if_true]
    exact (answersAs_allSameIn? h hl).inside 1
  · simp only [compareLists, hl, if_false, sameAll_of_length_ne hl]
    exact (answersAs_some false).inside 1

/-- Comparing two values in enough frames finds out whether they are the same. -/
theorem answersAs_sameIn? (v w : Value) : AnswersAs (v.sameIn? w) (v.same w) := by
  induction v using Value.induction generalizing w with
  | number n => cases w <;> exact (answersAs_some _).inside _
  | boolean b => cases w <;> exact (answersAs_some _).inside _
  | symbol name => cases w <;> exact (answersAs_some _).inside _
  | text content => cases w <;> exact (answersAs_some _).inside _
  | void => cases w <;> exact (answersAs_some _).inside _
  | null => cases w <;> exact (answersAs_some _).inside _
  | list items ih =>
      cases w with
      | list items' => exact answersAs_compareLists ih items'
      | _ => exact (answersAs_some _).inside _
  | lambda params body ih =>
      cases w with
      | lambda params' body' =>
          have hparts : AnswersAs
              (fun left => if params = params' then compareLists body body' left
                (allSameIn? body body') else some false)
              (params == params' && sameAll body body') := by
            by_cases hp : params = params'
            · simpa [hp] using answersAs_compareLists ih body'
            · simpa [beq_eq_false_iff_ne.mpr hp, hp] using answersAs_some false
          exact hparts.inside _
      | _ => exact (answersAs_some _).inside _

/-! ### Hashes -/

theorem hash?_plain (hashing : Hashing) (v : Value) : v.plain.hash? hashing = v.hash? hashing := by
  cases v <;> rfl

/-- Values that are the same have the same hash, or none for the same reason. -/
theorem hash?_eq_of_same (hashing : Hashing) {v w : Value} (h : v.same w = true) :
    v.hash? hashing = w.hash? hashing := by
  rw [← hash?_plain, (same_iff_plain_eq v w).mp h, hash?_plain]

/-- A value without parts. -/
def IsAtom (v : Value) : Prop := (∀ items, v ≠ .list items) ∧ ∀ params body, v ≠ .lambda params body

theorem IsAtom.exists_hash {v : Value} (h : v.IsAtom) (hashing : Hashing) :
    ∃ hash, v.hash? hashing = .ok hash := by
  cases v with
  | list items => exact absurd rfl (h.1 items)
  | lambda params body => exact absurd rfl (h.2 params body)
  | _ => exact ⟨_, rfl⟩

/-! ### Thinning out -/

/-- Some values with one of each class of the same values, the first one. -/
structure IsThinningOf (vs ws : List Value) : Prop where
  sublist : ws.Sublist vs
  pairwise : ws.Pairwise fun v w => v.same w = false
  first : ∀ v ∈ vs, ∃ w, vs.find? v.same = some w ∧ ws.filter v.same = [w]

theorem same_eq_of_same {v w : Value} (h : v.same w = true) : v.same = w.same := by
  funext u
  rw [Bool.eq_iff_iff]
  exact ⟨same_trans (same_symm h), same_trans h⟩

namespace IsThinningOf

variable {vs ws : List Value} {v : Value}

/-- Each value is the same as one that is kept. -/
theorem exists_same (h : IsThinningOf vs ws) (hv : v ∈ vs) : ∃ w ∈ ws, v.same w = true := by
  obtain ⟨w, _, hfilter⟩ := h.first v hv
  have hw : w ∈ ws.filter v.same := hfilter ▸ List.mem_singleton_self w
  exact ⟨w, List.mem_filter.mp hw⟩

/-- A value that is the same as one that is kept is dropped. -/
theorem append_same (h : IsThinningOf vs ws) {w : Value} (hw : w ∈ ws) (hsame : w.same v = true) :
    IsThinningOf (vs ++ [v]) ws where
  sublist := h.sublist.trans (List.sublist_append_left vs [v])
  pairwise := h.pairwise
  first u hu := by
    have hfirst : ∃ x, vs.find? u.same = some x ∧ ws.filter u.same = [x] := by
      rcases List.mem_append.mp hu with hu | hu
      · exact h.first u hu
      · rw [List.mem_singleton.mp hu, ← same_eq_of_same hsame]
        exact h.first w (h.sublist.subset hw)
    obtain ⟨x, hfind, hfilter⟩ := hfirst
    exact ⟨x, by rw [List.find?_append, hfind, Option.some_or], hfilter⟩

/-- A value that is the same as none that is kept is kept as well. -/
theorem append_new (h : IsThinningOf vs ws) (hnew : ∀ w ∈ ws, w.same v = false) :
    IsThinningOf (vs ++ [v]) (ws ++ [v]) where
  sublist := h.sublist.append_right [v]
  pairwise := by
    refine List.pairwise_append.mpr ⟨h.pairwise, List.pairwise_singleton _ v, ?_⟩
    intro w hw u hu
    rw [List.mem_singleton.mp hu]
    exact hnew w hw
  first u hu := by
    have hapart : ∀ x ∈ vs, x.same v = false := by
      intro x hx
      obtain ⟨w, hw, hsame⟩ := h.exists_same hx
      rw [same_eq_of_same hsame]
      exact hnew w hw
    rcases List.mem_append.mp hu with hu | hu
    · obtain ⟨x, hfind, hfilter⟩ := h.first u hu
      refine ⟨x, by rw [List.find?_append, hfind, Option.some_or], ?_⟩
      rw [List.filter_append, hfilter, List.filter_cons_of_neg (by simp [hapart u hu])]
      rfl
    · obtain rfl := List.mem_singleton.mp hu
      have hnone : ∀ x, x.same u = false → ¬ u.same x = true := by
        intro x hx hsame
        rw [same_symm hsame] at hx
        cases hx
      refine ⟨u, ?_, ?_⟩
      · rw [List.find?_append, List.find?_eq_none.mpr fun x hx => hnone x (hapart x hx),
          Option.none_or, List.find?_cons_of_pos (same_refl u)]
      · rw [List.filter_append, List.filter_eq_nil_iff.mpr fun w hw => hnone w (hnew w hw),
          List.filter_cons_of_pos (same_refl u)]
        rfl

end IsThinningOf

/-! ### Tables -/

/-- A table holds the first of each class of some values, each with its hash. -/
structure IsTableOf (hashing : Hashing) (vs : List Value) (table : List Entry) : Prop where
  hash_eq : ∀ entry ∈ table, entry.value.hash? hashing = .ok entry.hash
  thinning : IsThinningOf vs (table.map Entry.value)

theorem isTableOf_nil (hashing : Hashing) : IsTableOf hashing [] [] :=
  ⟨by simp, .slnil, .nil, by simp⟩

variable {hashing : Hashing} {vs : List Value} {table : List Entry} {v : Value}

/-- A value that is in the table is found, since it has the hash of its entry. -/
theorem IsTableOf.any_holds_iff (h : IsTableOf hashing vs table) {hash : Int}
    (hv : v.hash? hashing = .ok hash) :
    table.any (·.holds hash v) = true ↔ ∃ entry ∈ table, entry.value.same v = true := by
  simp only [List.any_eq_true, Entry.holds, Bool.and_eq_true, beq_iff_eq]
  constructor
  · rintro ⟨entry, hmem, _, hsame⟩
    exact ⟨entry, hmem, hsame⟩
  · rintro ⟨entry, hmem, hsame⟩
    have hhash := hash?_eq_of_same hashing hsame
    rw [h.hash_eq entry hmem, hv] at hhash
    exact ⟨entry, hmem, Except.ok.inj hhash, hsame⟩

/-- Putting one more value into a table. -/
theorem IsTableOf.insert (h : IsTableOf hashing vs table) (hv : v.IsAtom) :
    ∃ next, insert hashing table v = .ok next ∧ IsTableOf hashing (vs ++ [v]) next := by
  obtain ⟨hash, hhash⟩ := hv.exists_hash hashing
  have hany := h.any_holds_iff hhash
  simp only [Value.insert, hhash, Except.map]
  by_cases hheld : table.any (·.holds hash v) = true
  · obtain ⟨entry, hentry, hsame⟩ := hany.mp hheld
    refine ⟨table, by simp [hheld], h.hash_eq, ?_⟩
    exact h.thinning.append_same (List.mem_map_of_mem hentry) hsame
  · have hnew : ∀ w ∈ table.map Entry.value, w.same v = false :=
      List.forall_mem_map.mpr fun entry hentry =>
        Bool.eq_false_iff.mpr fun hsame => hheld (hany.mpr ⟨entry, hentry, hsame⟩)
    refine ⟨table ++ [⟨hash, v⟩], by simp [hheld], ?_, ?_⟩
    · intro entry hentry
      rcases List.mem_append.mp hentry with hentry | hentry
      · exact h.hash_eq entry hentry
      · rw [List.mem_singleton.mp hentry]
        exact hhash
    · rw [List.map_append]
      exact h.thinning.append_new hnew

/-- Collecting values in a table, one after another. -/
theorem exists_isTableOf (hashing : Hashing) (h : ∀ v ∈ vs, v.IsAtom) :
    ∃ table, vs.foldlM (insert hashing) [] = .ok table ∧ IsTableOf hashing vs table := by
  induction vs using List.reverseRecOn with
  | nil => exact ⟨[], rfl, isTableOf_nil hashing⟩
  | append_singleton vs v ih =>
      obtain ⟨hvs, hv⟩ := List.forall_mem_append.mp h
      obtain ⟨table, htable, hthinning⟩ := ih hvs
      obtain ⟨next, hnext, hthinning⟩ := hthinning.insert (List.forall_mem_singleton.mp hv)
      refine ⟨next, ?_, hthinning⟩
      simp [htable, hnext, bind, Except.bind, pure, Except.pure]

theorem distinct_of_isAtom (hashing : Hashing) (h : ∀ v ∈ vs, v.IsAtom) :
    ∃ ws, distinct hashing vs = .ok ws ∧ IsThinningOf vs ws := by
  obtain ⟨table, htable, hof⟩ := exists_isTableOf hashing h
  refine ⟨table.map Entry.value, ?_, hof.thinning⟩
  rw [distinct, htable]
  rfl

/-- The first value without a hash is refused. -/
theorem distinct_of_compound {before : List Value} (h : ∀ v ∈ before, v.IsAtom)
    {kind : Compound} (hv : v.hash? hashing = .error kind) (after : List Value) :
    distinct hashing (before ++ v :: after) = .error kind := by
  obtain ⟨table, htable, _⟩ := exists_isTableOf hashing h
  have hinsert : insert hashing table v = .error kind := by
    rw [insert, hv]
    rfl
  rw [distinct, List.foldlM_append, htable]
  simp [bind, Except.bind, hinsert, Except.map]

/-- Sameness of values is an equivalence that takes truth values for numbers and tells all else
apart, and comparing two values finds it out. Hashes agree with it. Values without parts are thinned
out to the first of each class; the first value with parts among them, if there is one, is refused by
its kind. -/
theorem same_isEquality_distinct_isThinning :
    IsEquality (fun v w => v.same w = true) ∧
    (∀ v w : Value, AnswersAs (v.sameIn? w) (v.same w)) ∧
    ∀ hashing : Hashing,
      (∀ v w : Value, v.same w = true → v.hash? hashing = w.hash? hashing) ∧
      (∀ vs : List Value, (∀ v ∈ vs, v.IsAtom) →
        ∃ ws, distinct hashing vs = .ok ws ∧ IsThinningOf vs ws) ∧
      ∀ before after : List Value, (∀ v ∈ before, v.IsAtom) →
        (∀ items, (distinct hashing (before ++ .list items :: after)).mapError Compound.message =
          .error "unhashable type: 'list'") ∧
        ∀ params body,
          (distinct hashing (before ++ .lambda params body :: after)).mapError Compound.message =
            .error "unhashable type: 'Lambda'" := by
  refine ⟨isEquality_same, answersAs_sameIn?, fun hashing => ?_⟩
  refine ⟨fun v w => hash?_eq_of_same hashing, fun vs => distinct_of_isAtom hashing, ?_⟩
  intro before after h
  constructor
  · intro items
    rw [distinct_of_compound h rfl]
    rfl
  · intro params body
    rw [distinct_of_compound h rfl]
    rfl

/-- A truth value after the number it counts as is dropped. A symbol and a text stay both, even if
all names have one hash. -/
theorem same_isEquality_distinct_isThinning_mixed :
    let hashing : Hashing := ⟨fun _ => 0, 0, 0⟩
    let vs : List Value := [.number 1, .boolean true, .symbol "x", .text "x", .void, .void]
    (∀ v ∈ vs, v.IsAtom) ∧ IsThinningOf vs [.number 1, .symbol "x", .text "x", .void] ∧
      (distinct hashing (vs ++ [.lambda [] [], .list []])).mapError Compound.message =
        .error "unhashable type: 'Lambda'" := by
  intro hashing vs
  have hatoms : ∀ v ∈ vs, v.IsAtom := by
    simp [vs, IsAtom]
  obtain ⟨_, hthinning, hrefused⟩ := same_isEquality_distinct_isThinning.2.2 hashing
  obtain ⟨ws, hdistinct, hthinning⟩ := hthinning vs hatoms
  obtain rfl : [.number 1, .symbol "x", .text "x", .void] = ws := Except.ok.inj hdistinct
  exact ⟨hatoms, hthinning, (hrefused vs [.list []] hatoms).2 [] []⟩

end DynLisp.Value

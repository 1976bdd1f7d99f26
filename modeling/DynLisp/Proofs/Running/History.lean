import DynLisp.Proofs.Reading.Numerals
import DynLisp.Proofs.Running.Environments

/-! # Environments and their history

Environments are made inside one another and names are bound in them, in any order. What a name
means in an environment is settled by the history of this alone: it is what was last bound to the
name in the nearest environment, on the way outward, in which the name was ever bound. -/

namespace DynLisp

/-- The text that a name stands for, however it is given. -/
def Key.spelled : Key → String
  | .text content => content
  | .symbol name => name
  | .number n => toString n

theorem Key.name_eq_spelled (key : Key) : key.name = key.spelled := by
  cases key with
  | text content => rfl
  | symbol name => rfl
  | number n => exact Numeral.decimal_eq_toString n

/-- What can be done to environments: make one inside another, make one with the parameters of a
function bound to values, and bind a name. -/
inductive Change where
  | extend
  | bind (params : List String) (args : List Value)
  | set (key : Key) (v : Value)

def Change.action : Change → Action
  | .extend => .extend
  | .bind params args => .bind params args
  | .set key v => .set key v

namespace Session

/-- The store after a change in environment `k`, which has to exist. -/
def after (interpreter : Interpreter) (store : Store) (k : Nat) (change : Change) : Store :=
  ((step interpreter store k change.action).map Prod.snd).getD store

/-- The store after changes in the given environments, starting from one that binds nothing. -/
def afterAll (interpreter : Interpreter) (changes : List (Nat × Change)) : Store :=
  changes.foldl (fun store change => after interpreter store change.1 change.2) .fresh

end Session

/-! ### Histories -/

/-- A name was bound to a value in an environment. -/
structure Binding where
  place : Nat
  name : String
  value : Value

/-- What happened to environments: in which other one each was made, in the order in which they
were, and the bindings, the latest first. -/
structure History where
  parents : List (Option Nat)
  bindings : List Binding

namespace History

/-- There is one environment, and nothing has happened. -/
def root : History := ⟨[none], []⟩

def extend (history : History) (k : Nat) : History :=
  { history with parents := history.parents ++ [some k] }

def set (history : History) (k : Nat) (name : String) (v : Value) : History :=
  { history with bindings := ⟨k, name, v⟩ :: history.bindings }

/-- Binds names one after another. -/
def setAll (history : History) (k : Nat) (entries : List (String × Value)) : History :=
  entries.foldl (fun history entry => history.set k entry.1 entry.2) history

/-- A change in an environment that exists. One that binds parameters fails if there are more of
them than values. -/
def note (history : History) (k : Nat) (change : Change) : History :=
  if k < history.parents.length then
    match change with
    | .extend => history.extend k
    | .bind params args =>
      if params.length ≤ args.length then
        (history.extend k).setAll history.parents.length (params.zip args)
      else history
    | .set key v => history.set k key.spelled v
  else history

/-- The history that changes in the given environments make. -/
def ofChanges (changes : List (Nat × Change)) : History :=
  changes.foldl (fun history change => history.note change.1 change.2) root

/-- What was last bound to a name in an environment itself, if anything ever was. -/
def latest? (history : History) (k : Nat) (name : String) : Option Value :=
  (history.bindings.find? fun b => b.place = k ∧ b.name = name).map Binding.value

/-- The environments from one outward. -/
inductive Walk (history : History) : Nat → List Nat → Prop where
  | root {k} (h : history.parents[k]? = some none) : Walk history k [k]
  | outward {k parent rest} (h : history.parents[k]? = some (some parent))
      (hw : Walk history parent rest) : Walk history k (k :: rest)

/-- What a name means at the start of a walk: what was last bound to it in the first environment of
the walk in which it was ever bound. -/
def meaning (history : History) (walk : List Nat) (name : String) : Value :=
  (walk.findSome? (history.latest? · name)).getD .null

theorem latest?_set (history : History) (j k : Nat) (name key : String) (v : Value) :
    (history.set j name v).latest? k key =
      if k = j ∧ key = name then some v else history.latest? k key := by
  by_cases h : k = j ∧ key = name
  · simp [latest?, set, h]
  · have h' : ¬ (j = k ∧ name = key) := fun he => h ⟨he.1.symm, he.2.symm⟩
    simp [latest?, set, h, List.find?_cons_of_neg, h']

theorem meaning_cons_of_some {history : History} {k : Nat} {name : String} {v : Value}
    (h : history.latest? k name = some v) (walk : List Nat) :
    history.meaning (k :: walk) name = v := by
  simp [meaning, h]

theorem meaning_cons_of_none {history : History} {k : Nat} {name : String}
    (h : history.latest? k name = none) (walk : List Nat) :
    history.meaning (k :: walk) name = history.meaning walk name := by
  simp [meaning, h]

/-- Binding a name in an environment can change the meaning of this name only, and only where no
environment before on the walk has bound it. -/
theorem of_meaning_set_ne {history : History} {j : Nat} {name key : String} {v : Value}
    {walk : List Nat}
    (h : (history.set j name v).meaning walk key ≠ history.meaning walk key) :
    key = name ∧ ∃ closer farther, walk = closer ++ j :: farther ∧
      ∀ k ∈ closer, history.latest? k name = none := by
  obtain rfl : key = name := by
    by_contra hk
    exact h (by simp [meaning, latest?_set, hk])
  refine ⟨rfl, ?_⟩
  induction walk with
  | nil => exact absurd rfl h
  | cons k walk ih =>
      by_cases hj : k = j
      · exact ⟨[], walk, by simp [hj], by simp⟩
      have hset : (history.set j key v).latest? k key = history.latest? k key := by
        simp [latest?_set, hj]
      cases hk : history.latest? k key with
      | some w =>
          rw [meaning_cons_of_some (hset.trans hk), meaning_cons_of_some hk] at h
          exact absurd rfl h
      | none =>
          rw [meaning_cons_of_none (hset.trans hk), meaning_cons_of_none hk] at h
          obtain ⟨closer, farther, rfl, hcloser⟩ := ih h
          exact ⟨k :: closer, farther, rfl, List.forall_mem_cons.mpr ⟨hk, hcloser⟩⟩

theorem Walk.set {history : History} {k : Nat} {walk : List Nat} (h : history.Walk k walk)
    (j : Nat) (name : String) (v : Value) : (history.set j name v).Walk k walk := by
  induction h with
  | root h => exact .root h
  | outward h _ ih => exact .outward h ih

end History

/-- The value of a name is what it is bound to, unless this is no value. -/
theorem Scope.getD_value? (scope : Scope) (name : String) :
    (scope.value? name).getD .null = (scope.find? name).getD .null := by
  unfold value?
  split
  · simp [*]
  · rfl

theorem Scope.isSome_value?_iff (scope : Scope) (name : String) :
    (scope.value? name).isSome ↔ (scope.find? name).getD .null ≠ .null := by
  unfold value?
  cases scope.find? name with
  | none => simp
  | some v => cases v <;> simp

/-! ### Stores -/

namespace Store

variable {store : Store} {k : Nat}

theorem frame?_add (frame : Frame) (j : Nat) :
    (store.add k frame).frame? j = if j = store.size then some frame else store.frame? j := by
  simp only [frame?, add, size, List.getElem?_append]
  by_cases hj : j < store.nodes.length
  · simp [hj, Nat.ne_of_lt hj]
  · by_cases he : j = store.nodes.length
    · simp [he]
    · simp [hj, he]
      omega

theorem frame?_set (name : String) (v : Value) (j : Nat) :
    (store.set k name v).frame? j =
      if j = k then (store.frame? j).map (·.set name v) else store.frame? j := by
  simp only [frame?, set, List.getElem?_modify]
  by_cases hj : j = k
  · simp [hj, Function.comp_def]
  · simp [hj, Ne.symm hj]

theorem map_parent_set (name : String) (v : Value) :
    (store.set k name v).nodes.map Node.parent = store.nodes.map Node.parent := by
  apply List.ext_getElem?
  intro j
  simp only [set, List.getElem?_map, List.getElem?_modify]
  by_cases hj : k = j
  · simp [hj, Function.comp_def]
  · simp [hj]

/-- Binding a name in the environment made last is the same as making it with the name bound. -/
theorem set_add (frame : Frame) (name : String) (v : Value) :
    (store.add k frame).set store.size name v = store.add k (frame.set name v) := by
  have hlast : store.size < (store.add k frame).nodes.length := by simp [add, size]
  rw [set, List.modify_eq_take_cons_drop hlast]
  simp [add, size]

/-- A store is what its history makes it: each environment is inside the one that it was made in and
binds the names that were bound in it to what they were last bound to. -/
structure Matches (store : Store) (history : History) : Prop where
  parents_eq : store.nodes.map Node.parent = history.parents
  bind_find? : ∀ k name, (store.frame? k).bind (·.find? name) = history.latest? k name
  ordered : store.Ordered
  root_eq : ∀ k, history.parents[k]? = some none → k = 0

namespace Matches

variable {history : History}

theorem fresh : Store.fresh.Matches .root where
  parents_eq := rfl
  bind_find? k name := by
    cases k <;> rfl
  ordered := Session.Reachable.fresh.ordered
  root_eq k hk := by
    cases k with
    | zero => rfl
    | succ k => simp [History.root] at hk

theorem size_eq (h : store.Matches history) : store.size = history.parents.length := by
  rw [← h.parents_eq, List.length_map, size]

/-- A new environment binds nothing. -/
theorem add (h : store.Matches history) (hk : k < store.size) :
    (store.add k .empty).Matches (history.extend k) where
  parents_eq := by
    simp [Store.add, History.extend, ← h.parents_eq]
  bind_find? j name := by
    have hj := h.bind_find? j name
    rw [frame?_add]
    by_cases he : j = store.size
    · -- nothing has ever been bound in an environment that did not exist
      have hnone : store.frame? j = none := frame?_eq_none_iff.mpr (Nat.le_of_eq he.symm)
      rw [hnone] at hj
      rw [if_pos he]
      exact hj
    · rw [if_neg he]
      exact hj
  ordered := h.ordered.add hk .empty
  root_eq j hj := by
    simp only [History.extend, List.getElem?_append] at hj
    split at hj
    · exact h.root_eq j hj
    · rw [List.getElem?_singleton] at hj
      split at hj <;> simp at hj

theorem set (h : store.Matches history) (hk : k < store.size) (name : String) (v : Value) :
    (store.set k name v).Matches (history.set k name v) where
  parents_eq := by
    rw [map_parent_set]
    exact h.parents_eq
  bind_find? j key := by
    rw [frame?_set, History.latest?_set, ← h.bind_find? j key]
    by_cases hj : j = k
    · obtain ⟨frame, hframe⟩ := exists_frame? hk
      simp [hj, hframe]
    · simp [hj]
  ordered := by
    obtain ⟨frame, hframe⟩ := exists_frame? hk
    rw [set_eq_setFrame hframe]
    exact h.ordered.setFrame _
  root_eq := h.root_eq

/-- Names may be bound one after another in the environment made last, or before it is made. -/
theorem setAll {frame : Frame} (h : (store.add k frame).Matches history)
    (entries : List (String × Value)) :
    (store.add k (entries.foldl (fun frame entry => frame.set entry.1 entry.2) frame)).Matches
      (history.setAll store.size entries) := by
  induction entries generalizing frame history with
  | nil => exact h
  | cons entry entries ih =>
      have hlast : store.size < (store.add k frame).size := by simp [Store.add, size]
      have hset := h.set hlast entry.1 entry.2
      rw [set_add] at hset
      exact ih hset

/-- A change to a store is a change to its history. -/
theorem after (h : store.Matches history) (interpreter : Interpreter) (k : Nat)
    (change : Change) :
    (Session.after interpreter store k change).Matches (history.note k change) := by
  by_cases hk : k < store.size
  · obtain ⟨frame, hframe⟩ := exists_frame? hk
    have hk' : k < history.parents.length := h.size_eq ▸ hk
    simp only [History.note, if_pos hk']
    cases change with
    | extend =>
        simpa [Session.after, Change.action, Session.step, hframe] using h.add hk
    | bind params args =>
        simp only [Session.after, Change.action, Session.step, hframe, Option.map_some,
          Option.getD_some]
        by_cases hl : params.length ≤ args.length
        · rw [Frame.ofCall, if_neg (Nat.not_lt.mpr hl), if_pos hl, ← h.size_eq]
          exact (h.add hk).setAll (params.zip args)
        · rw [Frame.ofCall, if_pos (Nat.not_le.mp hl), if_neg hl]
          exact h
    | set key v =>
        simpa [Session.after, Change.action, Session.step, hframe, key.name_eq_spelled] using
          h.set hk key.spelled v
  · have hk' : ¬ k < history.parents.length := h.size_eq ▸ hk
    simp only [History.note, if_neg hk', Session.after, Session.step_eq_none (Nat.not_lt.mp hk)]
    exact h

theorem foldl_after (h : store.Matches history) (interpreter : Interpreter)
    (changes : List (Nat × Change)) :
    (changes.foldl (fun store change => Session.after interpreter store change.1 change.2)
        store).Matches
      (changes.foldl (fun history change => history.note change.1 change.2) history) := by
  induction changes generalizing store history with
  | nil => exact h
  | cons change changes ih => exact ih (h.after interpreter change.1 change.2)

theorem afterAll (interpreter : Interpreter) (changes : List (Nat × Change)) :
    (Session.afterAll interpreter changes).Matches (.ofChanges changes) :=
  fresh.foldl_after interpreter changes

/-! ### Walks -/

theorem exists_node (h : store.Matches history) {parent : Option Nat}
    (hp : history.parents[k]? = some parent) : ∃ frame, store.nodes[k]? = some ⟨frame, parent⟩ := by
  rw [← h.parents_eq, List.getElem?_map, Option.map_eq_some_iff] at hp
  obtain ⟨⟨frame, _⟩, hnode, rfl⟩ := hp
  exact ⟨frame, hnode⟩

theorem parent_lt (h : store.Matches history) {parent : Nat}
    (hp : history.parents[k]? = some (some parent)) : parent < k := by
  obtain ⟨frame, hnode⟩ := h.exists_node hp
  exact h.ordered k parent (by simp [parent?, hnode])

theorem parent?_eq (h : store.Matches history) (k : Nat) :
    store.parent? k = history.parents[k]?.join := by
  rw [← h.parents_eq, List.getElem?_map, parent?]
  cases store.nodes[k]? <;> rfl

theorem lt_size (h : store.Matches history) {walk : List Nat} (hw : history.Walk k walk) :
    k < store.size := by
  rw [h.size_eq]
  cases hw with
  | root hp => exact (List.getElem?_eq_some_iff.mp hp).1
  | outward hp _ => exact (List.getElem?_eq_some_iff.mp hp).1

/-- From every environment one gets to the first. -/
theorem exists_walk (h : store.Matches history) (hk : k < store.size) :
    ∃ walk, history.Walk k walk ∧ walk.getLast? = some 0 := by
  induction k using Nat.strongRecOn with
  | ind k ih =>
      have hk' : k < history.parents.length := h.size_eq ▸ hk
      cases hp : history.parents[k]? with
      | none =>
          rw [List.getElem?_eq_none_iff] at hp
          omega
      | some parent =>
          cases parent with
          | none =>
              obtain rfl := h.root_eq k hp
              exact ⟨[0], .root hp, rfl⟩
          | some parent =>
              have hlt := h.parent_lt hp
              obtain ⟨walk, hwalk, hlast⟩ := ih parent hlt (Nat.lt_trans hlt hk)
              refine ⟨k :: walk, .outward hp hwalk, ?_⟩
              rw [List.getLast?_cons, hlast]
              rfl

/-- The walk that the history knows of is the one that a lookup takes. -/
theorem pathOf_eq (h : store.Matches history) {walk : List Nat} (hw : history.Walk k walk)
    {count : Nat} (hc : k < count) : store.pathOf count k = walk := by
  induction hw generalizing count with
  | @root k hp =>
      obtain ⟨frame, hnode⟩ := h.exists_node hp
      obtain ⟨n, rfl⟩ := Nat.exists_eq_add_of_lt hc
      simp [pathOf, hnode]
  | @outward k parent rest hp _ ih =>
      obtain ⟨frame, hnode⟩ := h.exists_node hp
      -- a parent comes before its child, so the count does not run out
      have hlt := h.parent_lt hp
      obtain ⟨n, rfl⟩ := Nat.exists_eq_add_of_lt hc
      simp [pathOf, hnode, ih (show parent < k + n by omega)]

/-- The scope of an environment has the frames on its walk outward. -/
theorem exists_scope? (h : store.Matches history) {walk : List Nat} (hw : history.Walk k walk) :
    ∃ scope, store.scope? k = some scope ∧ scope.frames = walk.filterMap store.frame? := by
  have hpath : store.path k = walk := h.pathOf_eq hw (Nat.lt_succ_self k)
  have hk : k < store.size := h.lt_size hw
  obtain ⟨frame, hframe⟩ := exists_frame? hk
  obtain ⟨rest, rfl⟩ : ∃ rest, walk = k :: rest := by
    cases hw with
    | root _ => exact ⟨[], rfl⟩
    | outward _ _ => exact ⟨_, rfl⟩
  exact ⟨⟨frame, rest.filterMap store.frame?⟩, by simp [scope?, hpath, hframe],
    by simp [Scope.frames, hframe]⟩

/-- A name means in an environment what its history says. -/
theorem find?_scope (h : store.Matches history) {walk : List Nat} {scope : Scope}
    (hs : scope.frames = walk.filterMap store.frame?) (name : String) :
    scope.find? name = walk.findSome? (history.latest? · name) := by
  rw [Scope.find?, hs, ← List.head?_filterMap, List.filterMap_filterMap, List.head?_filterMap]
  simp only [h.bind_find?]

theorem step_get (h : store.Matches history) {walk : List Nat} (hw : history.Walk k walk)
    (interpreter : Interpreter) (key : Key) :
    Session.step interpreter store k (.get key) =
      some (.value (history.meaning walk key.spelled), store) := by
  obtain ⟨frame, hframe⟩ := exists_frame? (h.lt_size hw)
  obtain ⟨scope, hscope, hframes⟩ := h.exists_scope? hw
  simp only [Session.step, hframe, Option.map_some, value?, hscope, Option.bind_some,
    Scope.getD_value?, h.find?_scope hframes, key.name_eq_spelled, History.meaning]

theorem step_has (h : store.Matches history) {walk : List Nat} (hw : history.Walk k walk)
    (interpreter : Interpreter) (key : Key) :
    ∃ b, Session.step interpreter store k (.has key) = some (.holds b, store) ∧
      (b = true ↔ history.meaning walk key.spelled ≠ .null) := by
  obtain ⟨frame, hframe⟩ := exists_frame? (h.lt_size hw)
  obtain ⟨scope, hscope, hframes⟩ := h.exists_scope? hw
  refine ⟨(scope.value? key.name).isSome, ?_, ?_⟩
  · simp [Session.step, hframe, value?, hscope]
  · rw [Scope.isSome_value?_iff, h.find?_scope hframes, key.name_eq_spelled, History.meaning]

/-- Binding a name in an environment changes what is got from another one only if this lies inside
of it and none between them has ever bound the name. -/
theorem of_get_after_ne (h : store.Matches history) {walk : List Nat} {i j : Nat}
    (hw : history.Walk i walk) {interpreter : Interpreter} {x y : Key} {v : Value}
    (hne : (Session.step interpreter (Session.after interpreter store j (.set x v)) i
          (.get y)).map Prod.fst ≠
        (Session.step interpreter store i (.get y)).map Prod.fst) :
    y.spelled = x.spelled ∧ ∃ closer farther, walk = closer ++ j :: farther ∧
      ∀ k ∈ closer, history.latest? k x.spelled = none := by
  have hafter := h.after interpreter j (.set x v)
  by_cases hj : j < history.parents.length
  · have hnote : history.note j (.set x v) = history.set j x.spelled v := by
      simp only [History.note, if_pos hj]
    rw [hnote] at hafter
    rw [hafter.step_get (hw.set j x.spelled v), h.step_get hw] at hne
    have hmeaning : (history.set j x.spelled v).meaning walk y.spelled ≠
        history.meaning walk y.spelled := by
      simpa using hne
    exact History.of_meaning_set_ne hmeaning
  · have hnone := Session.step_eq_none (h.size_eq ▸ Nat.not_lt.mp hj : store.size ≤ j) interpreter
    simp [Session.after, hnone] at hne

end Matches

/-- The law of environments: each is inside an environment that was made before it, so that one gets
from it to the first one; a name means in it what its history says, and this changes only by a
binding of the name where it is seen. -/
structure Recalls (interpreter : Interpreter) (history : History) (store : Store) : Prop where
  size_eq : store.size = history.parents.length
  parent?_eq : ∀ k, store.parent? k = history.parents[k]?.join
  parent_lt : ∀ k parent, store.parent? k = some parent → parent < k
  exists_walk : ∀ k < store.size, ∃ walk, history.Walk k walk ∧ walk.getLast? = some 0
  get_eq : ∀ k walk key, history.Walk k walk →
    Session.step interpreter store k (.get key) =
      some (.value (history.meaning walk key.spelled), store)
  has_iff : ∀ k walk key, history.Walk k walk →
    ∃ b, Session.step interpreter store k (.has key) = some (.holds b, store) ∧
      (b = true ↔ history.meaning walk key.spelled ≠ .null)
  of_get_ne : ∀ i walk j x v y, history.Walk i walk →
    (Session.step interpreter (Session.after interpreter store j (.set x v)) i
        (.get y)).map Prod.fst ≠
      (Session.step interpreter store i (.get y)).map Prod.fst →
    y.spelled = x.spelled ∧ ∃ closer farther, walk = closer ++ j :: farther ∧
      ∀ k ∈ closer, history.latest? k x.spelled = none

end Store

/-- Whatever is done to environments, they obey the law of their history. -/
theorem Session.afterAll_recalls (interpreter : Interpreter) (changes : List (Nat × Change)) :
    (afterAll interpreter changes).Recalls interpreter (.ofChanges changes) := by
  have h := Store.Matches.afterAll interpreter changes
  exact {
    size_eq := h.size_eq
    parent?_eq := h.parent?_eq
    parent_lt := h.ordered
    exists_walk := fun k hk => h.exists_walk hk
    get_eq := fun k walk key hw => h.step_get hw interpreter key
    has_iff := fun k walk key hw => h.step_has hw interpreter key
    of_get_ne := fun i walk j x v y hw hne => h.of_get_after_ne hw hne }

-- a name bound to no value hides what is bound further out
example :
    (Session.step .standard
      (Session.afterAll .standard [(0, .set (.number 7) (.number 1)), (0, .extend),
        (1, .set (.symbol "7") .null), (1, .bind ["y", "y"] [.number 2, .number 3])])
      2 (.get (.text "7"))).map Prod.fst = some (.value .null) := rfl

end DynLisp

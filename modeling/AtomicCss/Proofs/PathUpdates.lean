import AtomicCss.Proofs.Dict
import AtomicCss.Value.Tree
import Mathlib.Data.List.Pairwise

/-!
# What updates change and calls collect

An update changes the value at its path. On the way it only touches maps that the path leads
through, so every path that turns off somewhere leads to what it led to before. Calls that add items
at such paths therefore do not disturb one another, and each path collects its own items in order.
-/
namespace AtomicCss.Tree

/-- The value that a path of keys leads to, from map to map. -/
def at? : Value → List String → Option Value
  | v, [] => some v
  | v, k :: path => (v.map?.bind fun members => members.get? k).bind fun w => at? w path

/-- Neither path leads through the other. -/
def Apart (p q : List String) : Prop := ¬p <+: q ∧ ¬q <+: p

variable {p q : List String} {k l : String} {tree : Dict Value}

theorem Apart.symm (h : Apart p q) : Apart q p := ⟨h.2, h.1⟩

theorem Apart.ne_nil (h : Apart p q) : p ≠ [] := by
  rintro rfl
  exact h.1 q.nil_prefix

theorem apart_cons_iff : Apart (k :: p) (l :: q) ↔ (k = l → Apart p q) := by
  by_cases hkl : k = l
  · simp [Apart, List.cons_prefix_cons, hkl]
  · simp [Apart, List.cons_prefix_cons, hkl, Ne.symm hkl]

theorem at?_cons (tree : Dict Value) (k : String) (p : List String) :
    at? (.map tree) (k :: p) = (tree.get? k).bind fun v => at? v p := rfl

theorem at?_empty (hp : p ≠ []) : at? (.map []) p = none := by
  cases p with
  | nil => exact absurd rfl hp
  | cons k p => rfl

/-- A value that is no map leads nowhere, and so does the empty map that replaces it. -/
theorem at?_entered (v? : Option Value) (hp : p ≠ []) :
    at? (.map (entered v?)) p = v?.bind fun v => at? v p := by
  cases p with
  | nil => exact absurd rfl hp
  | cons k p =>
    cases v? with
    | none => rfl
    | some v => cases v <;> rfl

section Updates

variable {ε : Type} {f : Value → Except ε Value}

theorem update_cons_cons (f : Value → Except ε Value) (tree : Dict Value) (k l : String)
    (p : List String) : update f tree (k :: l :: p)
      = (tree.set k (.map (update f (entered (tree.get? k)) (l :: p)).1),
        (update f (entered (tree.get? k)) (l :: p)).2) := rfl

theorem update_of_ok (hp : p ≠ []) {v : Value}
    (h : f ((at? (.map tree) p).getD .null) = .ok v) :
    (update f tree p).2 = none ∧ at? (.map (update f tree p).1) p = some v := by
  induction p generalizing tree with
  | nil => exact absurd rfl hp
  | cons k p ih =>
    cases p with
    | nil =>
      have hpresent : (at? (.map tree) [k]).getD .null = tree.getD k .null := by
        rw [at?_cons, Dict.getD]
        cases tree.get? k <;> rfl
      rw [hpresent] at h
      rw [update, h, at?_cons, Dict.get?_set, if_pos rfl]
      exact ⟨rfl, rfl⟩
    | cons l p =>
      have hne : l :: p ≠ [] := List.cons_ne_nil l p
      rw [at?_cons, ← at?_entered _ hne] at h
      obtain ⟨hnone, hsome⟩ := ih hne h
      rw [update_cons_cons, at?_cons, Dict.get?_set, if_pos rfl]
      exact ⟨hnone, hsome⟩

/-- A path apart from that of an update leads to the same value afterwards, even if the updater
refuses. -/
theorem at?_update_of_apart (h : Apart q p) :
    at? (.map (update f tree p).1) q = at? (.map tree) q := by
  induction p generalizing q tree with
  | nil => exact absurd rfl h.symm.ne_nil
  | cons k p ih =>
    obtain ⟨j, q, rfl⟩ := List.exists_cons_of_ne_nil h.ne_nil
    rw [apart_cons_iff] at h
    cases p with
    | nil =>
      have hne : k ≠ j := fun hkj => (h hkj.symm).symm.ne_nil rfl
      rw [update]
      split
      · rw [at?_cons, Dict.get?_set, if_neg hne, at?_cons]
      · rfl
    | cons l p =>
      rw [update_cons_cons, at?_cons, Dict.get?_set]
      split
      · next hkj =>
        subst hkj
        rw [Option.bind_some, ih (h rfl), at?_entered _ (h rfl).ne_nil, at?_cons]
      · rw [at?_cons]

end Updates

section Items

/-- Items are added to the list at a path, or make a new list where there is nothing. -/
theorem append_of_list {present : List Value} (hp : p ≠ [])
    (h : at? (.map tree) p = some (.list present) ∨ at? (.map tree) p = none ∧ present = [])
    (items : List Value) :
    (append tree p items).2 = none
      ∧ at? (.map (append tree p items).1) p = some (.list (present ++ items)) := by
  refine update_of_ok hp ?_
  rcases h with hsome | ⟨hnone, rfl⟩
  · rw [hsome]
    cases present <;> rfl
  · rw [hnone]
    rfl

structure Call where
  path : List String
  items : List Value

/-- Makes calls one after the other, until one fails. -/
def appendAll : Dict Value → List Call → Dict Value × Option (Error NumberError)
  | tree, [] => (tree, none)
  | tree, c :: calls =>
    match append tree c.path c.items with
    | (tree, none) => appendAll tree calls
    | failed => failed

theorem appendAll_cons {c : Call} (h : (append tree c.path c.items).2 = none)
    (calls : List Call) :
    appendAll tree (c :: calls) = appendAll (append tree c.path c.items).1 calls := by
  have happend : append tree c.path c.items = ((append tree c.path c.items).1, none) :=
    Prod.ext rfl h
  rw [appendAll, happend]

/-- All items that calls add at a path, in order. -/
def itemsAt (calls : List Call) (path : List String) : List Value :=
  (calls.filter fun c => c.path = path).flatMap Call.items

/-- The list that calls make at a path, if they add to it. -/
def listAt? (calls : List Call) (path : List String) : Option Value :=
  if path ∈ calls.map Call.path then some (.list (itemsAt calls path)) else none

/-- Paths that are the same, or apart. -/
def Compatible (p q : List String) : Prop := p = q ∨ Apart p q

variable {calls before : List Call} {c : Call}

theorem listAt?_of_notMem (h : p ∉ calls.map Call.path) :
    listAt? calls p = none ∧ itemsAt calls p = [] := by
  refine ⟨if_neg h, ?_⟩
  rw [itemsAt, List.filter_eq_nil_iff.2 fun c hc hcp => ?_, List.flatMap_nil]
  exact h (List.mem_map.2 ⟨c, hc, of_decide_eq_true hcp⟩)

theorem listAt?_concat_self (before : List Call) (c : Call) :
    listAt? (before ++ [c]) c.path = some (.list (itemsAt before c.path ++ c.items)) := by
  rw [listAt?, if_pos (by simp)]
  simp [itemsAt]

theorem listAt?_concat_of_ne (h : p ≠ c.path) (before : List Call) :
    listAt? (before ++ [c]) p = listAt? before p := by
  simp [listAt?, itemsAt, h, Ne.symm h]

/-- A call succeeds where the calls before it have left their lists, and then leaves the lists of
all. -/
theorem append_step (hc : c.path ≠ []) (h : at? (.map tree) c.path = listAt? before c.path) :
    (append tree c.path c.items).2 = none
      ∧ ∀ p, Compatible p c.path → at? (.map tree) p = listAt? before p →
        at? (.map (append tree c.path c.items).1) p = listAt? (before ++ [c]) p := by
  have hpresent : at? (.map tree) c.path = some (.list (itemsAt before c.path))
      ∨ at? (.map tree) c.path = none ∧ itemsAt before c.path = [] := by
    rw [h]
    by_cases hmem : c.path ∈ before.map Call.path
    · exact .inl (if_pos hmem)
    · exact .inr (listAt?_of_notMem hmem)
  obtain ⟨hnone, hlist⟩ := append_of_list hc hpresent c.items
  refine ⟨hnone, fun p hp htree => ?_⟩
  rcases hp with rfl | hapart
  · rw [hlist, listAt?_concat_self]
  · have hne : p ≠ c.path := by
      rintro rfl
      exact hapart.1 List.prefix_rfl
    rw [listAt?_concat_of_ne hne, ← htree]
    exact at?_update_of_apart hapart

/-- Calls at compatible paths all succeed and leave their lists, at whatever paths are compatible
with theirs. -/
theorem appendAll_run {P : List String → Prop} (hne : ∀ p, P p → p ≠ [])
    (hP : ∀ p, P p → ∀ c ∈ calls, Compatible p c.path) (hcalls : ∀ c ∈ calls, P c.path)
    (tree : Dict Value) (before : List Call)
    (h : ∀ p, P p → at? (.map tree) p = listAt? before p) :
    (appendAll tree calls).2 = none
      ∧ ∀ p, P p → at? (.map (appendAll tree calls).1) p = listAt? (before ++ calls) p := by
  induction calls generalizing tree before with
  | nil =>
    rw [List.append_nil]
    exact ⟨rfl, h⟩
  | cons c calls ih =>
    have hc := hcalls c List.mem_cons_self
    obtain ⟨hnone, hstep⟩ := append_step (hne _ hc) (h _ hc)
    rw [appendAll_cons hnone, List.append_cons]
    exact ih (fun p hp d hd => hP p hp d (List.mem_cons_of_mem _ hd))
      (fun d hd => hcalls d (List.mem_cons_of_mem _ hd)) _ _
      fun p hp => hstep p (hP p hp c List.mem_cons_self) (h p hp)

end Items

/-- An update has put a value at its path, and changed nothing at paths apart from it. -/
structure IsUpdated {ε : Type} (tree : Dict Value) (path : List String) (v : Value)
    (result : Dict Value × Option (Error ε)) : Prop where
  succeeds : result.2 = none
  value : at? (.map result.1) path = some v
  others : ∀ q, Apart q path → at? (.map result.1) q = at? (.map tree) q

/-- Calls on the empty tree leave at each path the items added there, and nothing at paths apart
from all of theirs. They fail only for want of a path. -/
structure Collects (calls : List Call) : Prop where
  succeeds_iff : (appendAll [] calls).2 = none ↔ ∀ c ∈ calls, c.path ≠ []
  lists : ∀ c ∈ calls, c.path ≠ [] →
    at? (.map (appendAll [] calls).1) c.path = some (.list (itemsAt calls c.path))
  others : ∀ p ≠ [], (∀ c ∈ calls, Apart p c.path) → at? (.map (appendAll [] calls).1) p = none

theorem isUpdated_update {ε : Type} {f : Value → Except ε Value} (hp : p ≠ []) {v : Value}
    (h : f ((at? (.map tree) p).getD .null) = .ok v) : IsUpdated tree p v (update f tree p) := by
  obtain ⟨hnone, hvalue⟩ := update_of_ok hp h
  exact ⟨hnone, hvalue, fun q hq => at?_update_of_apart hq⟩

theorem collects_of_ne_nil {calls : List Call} (hne : ∀ c ∈ calls, c.path ≠ [])
    (h : ∀ c ∈ calls, ∀ d ∈ calls, Compatible c.path d.path) : Collects calls := by
  obtain ⟨hnone, hlists⟩ := appendAll_run
    (P := fun p => p ≠ [] ∧ ∀ c ∈ calls, Compatible p c.path) (fun p hp => hp.1)
    (fun p hp => hp.2) (fun c hc => ⟨hne c hc, h c hc⟩) [] [] fun p hp => at?_empty hp.1
  refine ⟨iff_of_true hnone hne, fun c hc hpath => ?_, fun p hp hapart => ?_⟩
  · rw [hlists _ ⟨hpath, h c hc⟩]
    exact if_pos (List.mem_map_of_mem hc)
  · rw [hlists p ⟨hp, fun c hc => .inr (hapart c hc)⟩]
    refine (listAt?_of_notMem fun hmem => ?_).1
    obtain ⟨c, hc, rfl⟩ := List.mem_map.1 hmem
    exact (hapart c hc).1 List.prefix_rfl

/-- Only the empty path is compatible with the empty one, so then the first call fails. -/
theorem collects_of_nil {calls : List Call} {c : Call} (hc : c ∈ calls) (hnil : c.path = [])
    (h : ∀ d ∈ calls, Compatible c.path d.path) : Collects calls := by
  have hall : ∀ d ∈ calls, d.path = [] := by
    intro d hd
    rcases h d hd with heq | hapart
    · rw [← heq, hnil]
    · exact absurd hnil hapart.ne_nil
  have hrun : appendAll [] calls = ([], some .emptyPath) := by
    cases calls with
    | nil => cases hc
    | cons d calls =>
      rw [appendAll, hall d List.mem_cons_self]
      rfl
  refine ⟨iff_of_false ?_ fun hne => hne c hc hnil, fun d hd hne => absurd (hall d hd) hne,
    fun p hp _ => ?_⟩
  · rw [hrun]
    exact Option.some_ne_none _
  · rw [hrun]
    exact at?_empty hp

/-- An update that its updater does not refuse puts the result at its path and leaves the paths
apart from it alone. So each path collects what is added to it, as long as all paths are the same
or apart. -/
theorem isUpdated_and_collects {ε : Type} {f : Value → Except ε Value} {tree : Dict Value}
    {path : List String} (hpath : path ≠ []) {v : Value}
    (hv : f ((at? (.map tree) path).getD .null) = .ok v) {calls : List Call}
    (hcalls : calls.Pairwise fun c d => Compatible c.path d.path) :
    IsUpdated tree path v (update f tree path) ∧ Collects calls := by
  refine ⟨isUpdated_update hpath hv, ?_⟩
  have hall : ∀ c ∈ calls, ∀ d ∈ calls, Compatible c.path d.path :=
    hcalls.forall_of_forall_of_flip (fun _ _ => .inl rfl)
      (hcalls.imp fun h => h.imp Eq.symm Apart.symm)
  by_cases hnil : ∃ c ∈ calls, c.path = []
  · obtain ⟨c, hc, hnil⟩ := hnil
    exact collects_of_nil hc hnil (hall c hc)
  · exact collects_of_ne_nil (fun c hc hpath => hnil ⟨c, hc, hpath⟩) hall

/-- A text that is in the way is replaced by a map, and calls at two paths take turns. -/
theorem isUpdated_and_collects_turns :
    IsUpdated [("a", .text "x"), ("b", .null)] ["a", "c"] (.list [.null])
        (update (fun v => .ok (.list [v]) : Value → Except Empty Value)
          [("a", .text "x"), ("b", .null)] ["a", "c"])
      ∧ Collects [⟨["a", "c"], [.text "1"]⟩, ⟨["b"], [.text "2"]⟩, ⟨["a", "c"], [.text "3"]⟩] := by
  refine isUpdated_and_collects ?_ ?_ ?_
  · decide
  · rfl
  · simp [Compatible, Apart]

end AtomicCss.Tree

import AtomicCss.Dict
import Mathlib.Data.List.Nodup

/-!
# Laws of maps in insertion order

Setting a key changes what is found under that key alone, and keeps keys distinct. A dictionary
with distinct keys is found again member by member, and setting its members in turn gives it back.
-/
namespace AtomicCss.Dict

variable {α β : Type}

@[simp] theorem get?_nil (k : String) : get? ([] : Dict α) k = none := rfl

theorem get?_cons (j k : String) (v : α) (d : Dict α) :
    get? ((j, v) :: d) k = if j = k then some v else get? d k := rfl

theorem get?_set (d : Dict α) (j k : String) (v : α) :
    get? (set d j v) k = if j = k then some v else get? d k := by
  induction d with
  | nil => rfl
  | cons m d ih =>
    obtain ⟨i, w⟩ := m
    by_cases hij : i = j
    · subst hij
      simp only [set, if_true, get?_cons]
      split <;> rfl
    · simp only [set, hij, if_false, get?_cons, ih]
      by_cases hik : i = k
      · subst hik
        simp [Ne.symm hij]
      · simp [hik]

theorem get?_update (d : Dict α) (j k : String) (f : Option α → α) :
    get? (update d j f) k = if j = k then some (f (get? d j)) else get? d k :=
  get?_set d j k _

theorem getD_append (d : Dict (List α)) (j k : String) (items : List α) :
    getD (append d j items) k [] = getD d k [] ++ if j = k then items else [] := by
  by_cases h : j = k
  · subst h
    simp [getD, append, get?_update]
  · simp [getD, append, get?_update, h]

theorem mem_keys_iff {d : Dict α} {k : String} : k ∈ keys d ↔ (get? d k).isSome := by
  induction d with
  | nil => simp [keys]
  | cons m d ih =>
    obtain ⟨j, v⟩ := m
    by_cases h : j = k
    · simp [keys, get?_cons, h]
    · rw [get?_cons, if_neg h, ← ih]
      simp [keys, Ne.symm h]

theorem mem_of_get? {d : Dict α} {k : String} {v : α} (h : get? d k = some v) : (k, v) ∈ d := by
  induction d with
  | nil => simp at h
  | cons m d ih =>
    obtain ⟨j, w⟩ := m
    rw [get?_cons] at h
    split at h
    · next hj => simp_all
    · exact List.mem_cons_of_mem _ (ih h)

theorem mem_keys_of_mem {d : Dict α} {k : String} {v : α} (h : (k, v) ∈ d) : k ∈ keys d :=
  List.mem_map.2 ⟨_, h, rfl⟩

theorem get?_of_mem {d : Dict α} (hd : (keys d).Nodup) {k : String} {v : α} (h : (k, v) ∈ d) :
    get? d k = some v := by
  induction d with
  | nil => simp at h
  | cons m d ih =>
    obtain ⟨j, w⟩ := m
    obtain ⟨hj, hd⟩ := List.nodup_cons.1 hd
    rw [get?_cons]
    rcases List.mem_cons.1 h with h | h
    · simp [(Prod.mk.inj h).1, (Prod.mk.inj h).2]
    · have hne : j ≠ k := fun e => hj (e ▸ mem_keys_of_mem h)
      rw [if_neg hne, ih hd h]

theorem getD_of_mem {d : Dict α} (hd : (keys d).Nodup) {k : String} {v w : α} (h : (k, v) ∈ d) :
    getD d k w = v := by rw [getD, get?_of_mem hd h, Option.getD_some]

theorem set_of_notMem {d : Dict α} {k : String} (h : k ∉ keys d) (v : α) :
    set d k v = List.append d [(k, v)] := by
  induction d with
  | nil => rfl
  | cons m d ih =>
    obtain ⟨j, w⟩ := m
    obtain ⟨hj, hd⟩ := not_or.1 (List.mem_cons.not.1 h)
    simp only [set, if_neg (Ne.symm hj), ih hd]
    rfl

theorem keys_set_of_mem {d : Dict α} {k : String} (h : k ∈ keys d) (v : α) :
    keys (set d k v) = keys d := by
  induction d with
  | nil => simp [keys] at h
  | cons m d ih =>
    obtain ⟨j, w⟩ := m
    by_cases hj : j = k
    · simp [set, keys, hj]
    · have hd : k ∈ keys d := (List.mem_cons.1 h).resolve_left (Ne.symm hj)
      simp only [set, if_neg hj]
      exact congrArg (j :: ·) (ih hd)

theorem keys_set_of_notMem {d : Dict α} {k : String} (h : k ∉ keys d) (v : α) :
    keys (set d k v) = keys d ++ [k] := by
  rw [set_of_notMem h]
  exact List.map_append

theorem mem_keys_set {d : Dict α} {j k : String} {v : α} :
    k ∈ keys (set d j v) ↔ k = j ∨ k ∈ keys d := by
  rw [mem_keys_iff, mem_keys_iff, get?_set]
  by_cases h : j = k
  · simp [h]
  · simp [h, Ne.symm h]

theorem nodup_keys_nil : (keys ([] : Dict α)).Nodup := List.nodup_nil

theorem nodup_keys_set {d : Dict α} (hd : (keys d).Nodup) (k : String) (v : α) :
    (keys (set d k v)).Nodup := by
  by_cases h : k ∈ keys d
  · rwa [keys_set_of_mem h]
  · rw [keys_set_of_notMem h]
    exact hd.append (List.nodup_singleton k) (by simpa using h)

theorem nodup_keys_update {d : Dict α} (hd : (keys d).Nodup) (k : String) (f : Option α → α) :
    (keys (update d k f)).Nodup := nodup_keys_set hd k _

theorem nodup_keys_append {d : Dict (List α)} (hd : (keys d).Nodup) (k : String)
    (items : List α) : (keys (append d k items)).Nodup := nodup_keys_set hd k _

theorem nodup_keys_merge {d : Dict α} (hd : (keys d).Nodup) (e : Dict α) :
    (keys (merge d e)).Nodup := by
  induction e generalizing d with
  | nil => exact hd
  | cons m e ih => exact ih (nodup_keys_set hd _ _)

theorem nodup_keys_ofList (members : List (String × α)) : (keys (ofList members)).Nodup :=
  nodup_keys_merge nodup_keys_nil members

theorem merge_of_nodup {d e : Dict α} (h : (keys (List.append d e)).Nodup) :
    merge d e = List.append d e := by
  induction e generalizing d with
  | nil => exact (List.append_nil d).symm
  | cons m e ih =>
    obtain ⟨k, v⟩ := m
    have happ : List.append d ((k, v) :: e) = List.append (List.append d [(k, v)]) e := by
      simp
    rw [happ] at h ⊢
    have hk : k ∉ keys d := by
      intro hk
      simp only [List.append_eq, keys, List.map_append] at h hk
      have := (List.nodup_append.1 (List.nodup_append.1 h).1).2.2
      exact this k hk k (by simp) rfl
    change merge (set d k v) e = _
    rw [set_of_notMem hk, ih h]

/-- Members whose keys differ are all kept. -/
theorem ofList_of_nodup {members : List (String × α)} (h : (keys members).Nodup) :
    ofList members = members :=
  merge_of_nodup h

theorem get?_list_append (d e : Dict α) (k : String) :
    get? (d ++ e : List (String × α)) k = (get? d k).or (get? e k) := by
  induction d with
  | nil => rfl
  | cons m d ih =>
    obtain ⟨j, v⟩ := m
    simp only [List.cons_append, get?_cons, ih]
    split <;> rfl

/-- What the last of the members with a key says is found under it. -/
theorem get?_merge (d e : Dict α) (k : String) :
    get? (merge d e) k = (get? e.reverse k).or (get? d k) := by
  induction e generalizing d with
  | nil => rfl
  | cons m e ih =>
    change get? (merge (set d m.1 m.2) e) k = _
    rw [ih, get?_set, List.reverse_cons, get?_list_append, Option.or_assoc, get?_cons, get?_nil]
    split <;> rfl

theorem get?_map (f : String → α → β) (d : Dict α) (k : String) :
    get? (d.map fun (k, v) => (k, f k v)) k = (get? d k).map (f k) := by
  induction d with
  | nil => rfl
  | cons m d ih =>
    obtain ⟨j, v⟩ := m
    simp only [List.map_cons, get?_cons, ih]
    by_cases h : j = k
    · simp [h]
    · simp [h]

theorem keys_map (f : String → α → β) (d : Dict α) :
    keys (d.map fun (k, v) => (k, f k v)) = keys d := by
  simp [keys, Function.comp_def]

theorem get?_mapValues (f : α → β) (d : Dict α) (k : String) :
    get? (mapValues f d) k = (get? d k).map f := get?_map (fun _ => f) d k

theorem keys_mapValues (f : α → β) (d : Dict α) : keys (mapValues f d) = keys d :=
  keys_map (fun _ => f) d

/-- Items filed in turn stand under their labels in the order of filing. -/
theorem getD_foldl_append (filed : List (String × List α)) (d : Dict (List α)) (k : String) :
    getD (filed.foldl (fun d (j, items) => append d j items) d) k []
      = getD d k [] ++ (filed.filter (·.1 = k)).flatMap (·.2) := by
  induction filed generalizing d with
  | nil => simp
  | cons m filed ih =>
    rw [List.foldl_cons, ih, getD_append, List.filter_cons]
    by_cases h : m.1 = k <;> simp [h]

theorem mem_getD_foldl_append {filed : List (String × List α)} {d : Dict (List α)} {k : String}
    {a : α} : a ∈ getD (filed.foldl (fun d (j, items) => append d j items) d) k []
      ↔ a ∈ getD d k [] ∨ ∃ items, (k, items) ∈ filed ∧ a ∈ items := by
  rw [getD_foldl_append]
  simp only [List.mem_append, List.mem_flatMap, List.mem_filter, decide_eq_true_eq, Prod.exists]
  constructor
  · rintro (h | ⟨_, items, ⟨hm, rfl⟩, ha⟩)
    · exact .inl h
    · exact .inr ⟨items, hm, ha⟩
  · rintro (h | ⟨items, hm, ha⟩)
    · exact .inl h
    · exact .inr ⟨k, items, ⟨hm, rfl⟩, ha⟩

theorem nodup_keys_foldl_append (filed : List (String × List α)) {d : Dict (List α)}
    (hd : (keys d).Nodup) :
    (keys (filed.foldl (fun d (j, items) => append d j items) d)).Nodup := by
  induction filed generalizing d with
  | nil => exact hd
  | cons m filed ih => exact ih (nodup_keys_append hd _ _)

theorem mem_keys_foldl_append {filed : List (String × List α)} {d : Dict (List α)} {k : String} :
    k ∈ keys (filed.foldl (fun d (j, items) => append d j items) d)
      ↔ k ∈ keys d ∨ k ∈ filed.map (·.1) := by
  induction filed generalizing d with
  | nil => simp
  | cons m filed ih =>
    have hset : k ∈ keys (append d m.1 m.2) ↔ k = m.1 ∨ k ∈ keys d := mem_keys_set
    rw [List.foldl_cons, ih, hset, List.map_cons, List.mem_cons]
    tauto

theorem getD_update (d : Dict α) (j k : String) (f : Option α → α) (v : α) :
    getD (update d j f) k v = if j = k then f (get? d j) else getD d k v := by
  rw [getD, get?_update]
  split <;> rfl

theorem mem_set {d : Dict α} {j k : String} {v w : α} (h : (k, w) ∈ set d j v) :
    (k, w) = (j, v) ∨ (k, w) ∈ d := by
  induction d with
  | nil => simpa [set] using h
  | cons m d ih =>
    rw [set] at h
    split at h
    · rcases List.mem_cons.1 h with h | h
      · exact .inl (by simp_all)
      · exact .inr (List.mem_cons_of_mem _ h)
    · rcases List.mem_cons.1 h with h | h
      · exact .inr (h ▸ List.mem_cons_self)
      · exact (ih h).imp id (List.mem_cons_of_mem _)

/-- The keys are distinct and all values are of a kind. -/
structure Keyed (P : α → Prop) (d : Dict α) : Prop where
  nodup : (keys d).Nodup
  all : ∀ k v, (k, v) ∈ d → P v

abbrev Distinct (d : Dict (Dict α)) : Prop := Keyed (fun e => (keys e).Nodup) d

namespace Keyed

variable {P : α → Prop} {d : Dict α}

theorem nil : Keyed P [] := ⟨nodup_keys_nil, by simp⟩

theorem get? (hd : Keyed P d) {k : String} {v : α} (h : Dict.get? d k = some v) : P v :=
  hd.all k v (mem_of_get? h)

theorem update (hd : Keyed P d) (j : String) {f : Option α → α}
    (hf : ∀ e, (∀ a ∈ e, P a) → P (f e)) : Keyed P (update d j f) where
  nodup := nodup_keys_update hd.nodup j f
  all := by
    intro k e h
    rcases mem_set h with h | h
    · rw [(Prod.mk.inj h).2]
      exact hf _ fun a ha => hd.get? ha
    · exact hd.all k e h

/-- What holds of nothing and of all present values holds of a value or of nothing in its place. -/
theorem getD_of_forall {a? : Option α} (h : ∀ a ∈ a?, P a) {b : α} (hb : P b) : P (a?.getD b) := by
  cases a? with
  | none => exact hb
  | some a => exact h a rfl

end Keyed

theorem Distinct.update_set {d : Dict (Dict α)} (hd : Distinct d) (j k : String) (v : α) :
    Distinct (update d j fun e => set (e.getD []) k v) :=
  Keyed.update hd j fun _ he => nodup_keys_set (Keyed.getD_of_forall he nodup_keys_nil) k v

/-- The value under a key of the dictionary under a key. -/
def at? (d : Dict (Dict α)) (j k : String) : Option α := (get? d j).bind fun e => get? e k

theorem at?_eq_some_iff {d : Dict (Dict α)} (hd : Distinct d) {j k : String} {v : α} :
    at? d j k = some v ↔ ∃ e, (j, e) ∈ d ∧ (k, v) ∈ e := by
  simp only [at?, Option.bind_eq_some_iff]
  constructor
  · rintro ⟨e, hj, hk⟩
    exact ⟨e, mem_of_get? hj, mem_of_get? hk⟩
  · rintro ⟨e, hj, hk⟩
    exact ⟨e, get?_of_mem hd.nodup hj, get?_of_mem (hd.all j e hj) hk⟩

theorem at?_update_set (d : Dict (Dict α)) (i j k l : String) (v : α) :
    at? (update d i fun e => set (e.getD []) j v) k l
      = if i = k ∧ j = l then some v else at? d k l := by
  simp only [at?, get?_update]
  by_cases hi : i = k
  · subst hi
    simp only [if_true, Option.bind_some, get?_set, true_and]
    cases get? d i <;> rfl
  · simp [hi]

theorem at?_map (f : α → β) (d : Dict (Dict α)) (j k : String) :
    at? (d.map fun (j, e) => (j, e.map fun (k, v) => (k, f v))) j k = (at? d j k).map f := by
  have houter : get? (d.map fun (j, e) => (j, e.map fun (k, v) => (k, f v))) j
      = (get? d j).map (mapValues f) := get?_map (fun _ e => mapValues f e) d j
  rw [at?, houter, at?]
  cases get? d j with
  | none => rfl
  | some e => exact get?_mapValues f e k

/-- The places of dictionaries below a dictionary differ. -/
theorem nodup_places {d : Dict α} (hd : (keys d).Nodup) (f : α → Dict β)
    (hf : ∀ j a, (j, a) ∈ d → (keys (f a)).Nodup) :
    (d.flatMap fun (j, a) => (keys (f a)).map fun k => (j, k)).Nodup := by
  rw [List.nodup_flatMap]
  refine ⟨?_, ?_⟩
  · rintro ⟨j, a⟩ hm
    exact (hf j a hm).map fun _ _ h => (Prod.mk.inj h).2
  · refine (List.pairwise_map.1 hd).imp fun {m n} hne place hm hn => hne ?_
    obtain ⟨_, -, rfl⟩ := List.mem_map.1 hm
    obtain ⟨_, -, heq⟩ := List.mem_map.1 hn
    exact (Prod.mk.inj heq).1.symm

/-- The value at a place of a dictionary of dictionaries, or nothing. -/
theorem getD_getD_eq (d : Dict (Dict (List α))) (j k : String) :
    getD (getD d j []) k [] = (at? d j k).getD [] := by
  rw [getD, getD, at?]
  cases get? d j <;> rfl

theorem getD_getD_update_append (d : Dict (Dict (List α))) (i j k l : String) (items : List α) :
    getD (getD (update d i fun e => append (e.getD []) j items) k []) l []
      = getD (getD d k []) l [] ++ if i = k ∧ j = l then items else [] := by
  rw [getD_update]
  by_cases hi : i = k
  · subst hi
    rw [if_pos rfl, getD_append]
    simp only [true_and]
    rfl
  · simp [hi]

theorem Distinct.update_append {d : Dict (Dict (List α))} (hd : Distinct d) (j k : String)
    (items : List α) : Distinct (update d j fun e => append (e.getD []) k items) :=
  Keyed.update hd j fun _ he =>
    nodup_keys_append (Keyed.getD_of_forall he nodup_keys_nil) k items

/-- Where items stand in dictionaries with distinct keys. -/
theorem mem_getD_getD {d : Dict (Dict (List α))} (hd : Distinct d) {j k : String} {a : α} :
    a ∈ getD (getD d j []) k [] ↔ ∃ e items, (j, e) ∈ d ∧ (k, items) ∈ e ∧ a ∈ items := by
  rw [getD_getD_eq]
  constructor
  · intro h
    cases hat : at? d j k with
    | none => simp [hat] at h
    | some items =>
      obtain ⟨e, hj, hk⟩ := (at?_eq_some_iff hd).1 hat
      rw [hat] at h
      exact ⟨e, items, hj, hk, h⟩
  · rintro ⟨e, items, hj, hk, ha⟩
    rwa [(at?_eq_some_iff hd).2 ⟨e, hj, hk⟩]

end AtomicCss.Dict

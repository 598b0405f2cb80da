import AtomicCss.Proofs.Tree
import AtomicCss.Schema.Check

/-!
# What is known of a checked schema

A check gives a schema only if every part passes, and maps are read with the last of equal keys
only. So no place of a checked schema is named twice.
-/
namespace AtomicCss

namespace Checked

variable {α β : Type}

theorem map_eq_valid {x : Checked α} {f : α → β} {b : β} :
    x.map f = .valid b ↔ ∃ a, x = .valid a ∧ f a = b := by
  cases x <;> simp [map]

theorem both_eq_valid {x : Checked α} {y : Checked β} {p : α × β} :
    both x y = .valid p ↔ x = .valid p.1 ∧ y = .valid p.2 := by
  obtain ⟨a, b⟩ := p
  cases x <;> cases y <;> simp [both]

theorem below_eq_valid {steps : List String} {x : Checked α} {a : α} :
    x.below steps = .valid a ↔ x = .valid a := by
  cases x <;> simp [below]

theorem andThen_eq_valid {x : Checked α} {f : α → Checked β} {b : β} :
    x.andThen f = .valid b ↔ ∃ a, x = .valid a ∧ f a = .valid b := by
  cases x <;> simp [andThen]

theorem andThen_rule_eq_valid {x : Checked α} {rule? : α → Option IssueCode} {a : α} :
    (x.andThen fun a => match rule? a with
      | some code => .fail code
      | none => .valid a) = .valid a ↔ x = .valid a ∧ rule? a = none := by
  rw [andThen_eq_valid]
  constructor
  · rintro ⟨b, hx, hrule⟩
    split at hrule
    · cases hrule
    · next hnone =>
      cases hrule
      exact ⟨hx, hnone⟩
  · rintro ⟨hx, hnone⟩
    exact ⟨a, hx, by rw [hnone]⟩

theorem functor_map_eq_valid {x : Checked α} {f : α → β} {b : β} :
    f <$> x = .valid b ↔ ∃ a, x = .valid a ∧ f a = b := map_eq_valid

theorem seq_eq_valid {f : Checked (α → β)} {x : Checked α} {b : β} :
    f <*> x = .valid b ↔ ∃ g a, f = .valid g ∧ x = .valid a ∧ g a = b := by
  have hseq : f <*> x = (both f x).map fun p => p.1 p.2 := rfl
  rw [hseq, map_eq_valid]
  simp only [both_eq_valid, Prod.exists, and_assoc]

theorem all_eq_valid {l : List (Checked α)} {r : List α} : all l = .valid r ↔ l = r.map .valid := by
  induction l generalizing r with
  | nil => cases r <;> simp [all]
  | cons x l ih =>
    rw [all, map_eq_valid]
    constructor
    · rintro ⟨⟨a, rest⟩, hboth, rfl⟩
      obtain ⟨hx, hrest⟩ := both_eq_valid.1 hboth
      rw [hx, ih.1 hrest]
      rfl
    · intro h
      cases r with
      | nil => cases h
      | cons a r =>
        obtain ⟨hx, hrest⟩ := List.cons.inj h
        exact ⟨(a, r), both_eq_valid.2 ⟨hx, ih.2 hrest⟩, rfl⟩

end Checked

theorem Dict.mem_of_mem_merge {α : Type} {d e : Dict α} {m : String × α} (h : m ∈ merge d e) :
    m ∈ d ∨ m ∈ e := by
  induction e generalizing d with
  | nil => exact .inl h
  | cons n e ih =>
    change m ∈ merge (set d n.1 n.2) e at h
    rcases ih h with h | h
    · rcases mem_set h with h | h
      · exact .inr (List.mem_cons.2 (.inl h))
      · exact .inl h
    · exact .inr (List.mem_cons_of_mem _ h)

namespace Check

open Checked

/-- Where a member of a map has been read from. -/
theorem exists_of_mem_mapOf {κ ν : Type} {key : Scalar → Checked κ} {value : Document → Checked ν}
    {d : Document} {r : List (κ × ν)} (h : mapOf key value d = .valid r) {m : κ × ν} (hm : m ∈ r) :
    ∃ members k e, d = .map members ∧ (k, e) ∈ members ∧ key k = .valid m.1
      ∧ value e = .valid m.2 := by
  cases d with
  | map members =>
    have hmem : .valid m ∈ r.map Checked.valid := List.mem_map.2 ⟨m, hm, rfl⟩
    rw [← all_eq_valid.1 h] at hmem
    obtain ⟨⟨k, e⟩, hke, hboth⟩ := List.mem_map.1 hmem
    obtain ⟨hk, he⟩ := both_eq_valid.1 hboth
    exact ⟨members, k, e, rfl, hke, below_eq_valid.1 hk, below_eq_valid.1 he⟩
  | circle =>
    cases h
    cases hm
  | _ => cases h

theorem exists_of_mem_listOf {α : Type} {item : Document → Checked α} {d : Document} {r : List α}
    (h : listOf item d = .valid r) {a : α} (ha : a ∈ r) :
    ∃ items e, d.items? = some items ∧ e ∈ items ∧ item e = .valid a := by
  rw [listOf] at h
  split at h
  · next items hitems =>
    have hmem : .valid a ∈ r.map Checked.valid := List.mem_map.2 ⟨a, ha, rfl⟩
    rw [← all_eq_valid.1 h] at hmem
    obtain ⟨⟨e, n⟩, he, hvalid⟩ := List.mem_map.1 hmem
    exact ⟨items, e, hitems, List.fst_mem_of_mem_zipIdx he, below_eq_valid.1 hvalid⟩
  · cases h

/-- The members that a structure has been read from. -/
theorem exists_of_closed {α : Type} {fields : List (List String)}
    {check : List (Scalar × Document) → Checked α} {d : Document} {a : α}
    (h : closed fields check d = .valid a) :
    ∃ members, check members = .valid a ∧ (d = .map members ∨ d = .circle) := by
  cases d with
  | map members =>
    obtain ⟨⟨_, _⟩, hboth, rfl⟩ := map_eq_valid.1 h
    exact ⟨members, (both_eq_valid.1 hboth).2, .inl rfl⟩
  | circle => exact ⟨[], h, .inr rfl⟩
  | _ => cases h

theorem exists_of_optional {α : Type} {members : List (Scalar × Document)} {names : List String}
    {check : Document → Checked α} {a : α} (h : optional members names check = .valid (some a)) :
    ∃ name d, Document.get? members name = some d ∧ check d = .valid a := by
  rw [optional] at h
  split at h
  · cases h
  · cases h
  · next hgiven =>
    obtain ⟨_, ha, heq⟩ := map_eq_valid.1 h
    cases heq
    obtain ⟨name, -, hname⟩ := List.exists_of_findSome?_eq_some hgiven
    obtain ⟨d, hget, heq⟩ := Option.map_eq_some_iff.1 hname
    obtain ⟨-, rfl⟩ := Prod.mk.inj heq
    exact ⟨name, d, hget, below_eq_valid.1 ha⟩

section

variable {κ ν : Type} [DecidableEq κ]

theorem mem_of_mem_setMember {members : List (κ × ν)} {k : κ} {v : ν} {m : κ × ν}
    (h : m ∈ setMember members k v) : m = (k, v) ∨ m ∈ members := by
  induction members with
  | nil => exact .inl (List.mem_singleton.1 h)
  | cons n members ih =>
    rw [setMember] at h
    split at h
    · next hk =>
      rcases List.mem_cons.1 h with rfl | h
      · exact .inl (Prod.ext hk rfl)
      · exact .inr (List.mem_cons_of_mem _ h)
    · rcases List.mem_cons.1 h with rfl | h
      · exact .inr List.mem_cons_self
      · exact (ih h).imp_right (List.mem_cons_of_mem _)

theorem nodup_setMember {members : List (κ × ν)} (h : (members.map Prod.fst).Nodup) (k : κ)
    (v : ν) : ((setMember members k v).map Prod.fst).Nodup := by
  induction members with
  | nil => exact List.nodup_singleton k
  | cons n members ih =>
    rw [List.map_cons, List.nodup_cons] at h
    rw [setMember]
    split
    · exact List.nodup_cons.2 h
    · next hk =>
      rw [List.map_cons, List.nodup_cons]
      refine ⟨?_, ih h.2⟩
      intro hm
      obtain ⟨m, hm, hfst⟩ := List.mem_map.1 hm
      rcases mem_of_mem_setMember hm with rfl | hm
      · exact hk hfst.symm
      · exact h.1 (List.mem_map.2 ⟨m, hm, hfst⟩)

theorem setMember_of_notMem {members : List (κ × ν)} {k : κ} (h : k ∉ members.map Prod.fst)
    (v : ν) : setMember members k v = members ++ [(k, v)] := by
  induction members with
  | nil => rfl
  | cons n members ih =>
    rw [List.map_cons, List.mem_cons, not_or] at h
    rw [setMember, if_neg (Ne.symm h.1), ih h.2, List.cons_append]

theorem mem_of_mem_foldl_setMember {members done : List (κ × ν)} {m : κ × ν}
    (h : m ∈ members.foldl (fun merged (k, v) => setMember merged k v) done) :
    m ∈ done ∨ m ∈ members := by
  induction members generalizing done with
  | nil => exact .inl h
  | cons n members ih =>
    rcases ih h with h | h
    · rcases mem_of_mem_setMember h with rfl | h
      · exact .inr List.mem_cons_self
      · exact .inl h
    · exact .inr (List.mem_cons_of_mem _ h)

theorem mem_of_mem_merged {members : List (κ × ν)} {m : κ × ν} (h : m ∈ merged members) :
    m ∈ members := (mem_of_mem_foldl_setMember h).resolve_left List.not_mem_nil

theorem nodup_foldl_setMember (members : List (κ × ν)) {done : List (κ × ν)}
    (h : (done.map Prod.fst).Nodup) :
    ((members.foldl (fun merged (k, v) => setMember merged k v) done).map Prod.fst).Nodup := by
  induction members generalizing done with
  | nil => exact h
  | cons n members ih => exact ih (nodup_setMember h n.1 n.2)

theorem nodup_merged (members : List (κ × ν)) : ((merged members).map Prod.fst).Nodup :=
  nodup_foldl_setMember members List.nodup_nil

theorem foldl_setMember_of_nodup {members done : List (κ × ν)}
    (h : ((done ++ members).map Prod.fst).Nodup) :
    members.foldl (fun merged (k, v) => setMember merged k v) done = done ++ members := by
  induction members generalizing done with
  | nil => exact (List.append_nil done).symm
  | cons n members ih =>
    obtain ⟨k, v⟩ := n
    have hk : k ∉ done.map Prod.fst := by
      rw [List.map_append, List.map_cons] at h
      intro hm
      exact (List.nodup_append.1 h).2.2 _ hm _ List.mem_cons_self rfl
    have hdone : done ++ (k, v) :: members = (done ++ [(k, v)]) ++ members := List.append_cons ..
    rw [hdone] at h ⊢
    rw [← ih h, List.foldl_cons, ← setMember_of_notMem hk]

theorem merged_of_nodup {members : List (κ × ν)} (h : (members.map Prod.fst).Nodup) :
    merged members = members := foldl_setMember_of_nodup h

end

/-- A map that has been read has each key once, and values that passed the check. -/
theorem keyed_of_dictOf {ν : Type} {value : Document → Checked ν} {P : ν → Prop}
    (hvalue : ∀ d v, value d = .valid v → P v) {d : Document} {r : Dict ν}
    (h : dictOf value d = .valid r) : Dict.Keyed P r := by
  obtain ⟨members, hmembers, rfl⟩ := map_eq_valid.1 h
  refine ⟨Dict.nodup_keys_ofList members, fun k v hm => ?_⟩
  rcases Dict.mem_of_mem_merge hm with hm | hm
  · cases hm
  · obtain ⟨_, _, e, -, -, -, he⟩ := exists_of_mem_mapOf hmembers hm
    exact hvalue e v he

theorem keyed_of_withDefault {ν : Type} {value : Document → Checked ν} {P : ν → Prop}
    (hvalue : ∀ d v, value d = .valid v → P v) {members : List (Scalar × Document)} {name : String}
    {r : Dict ν} (h : withDefault members name [] (dictOf value) = .valid r) : Dict.Keyed P r := by
  rw [withDefault] at h
  split at h
  · cases h
    exact .nil
  · exact keyed_of_dictOf hvalue (below_eq_valid.1 h)

theorem nodup_elements {d : Document} {c : Component} (h : component d = .valid c) :
    (Dict.keys c.elements).Nodup := by
  obtain ⟨members, hcheck, -⟩ := exists_of_closed h
  obtain ⟨elements, helements, rfl⟩ := functor_map_eq_valid.1 hcheck
  exact (keyed_of_withDefault (P := fun _ => True) (fun _ _ _ => trivial) helements).nodup

theorem exists_components {d : Document} {s : Schema} (h : schema d = .valid s) :
    ∃ members, withDefault members "components" [] (dictOf component) = .valid s.components := by
  cases d with
  | map m =>
    simp only [schema, seq_eq_valid, functor_map_eq_valid] at h
    obtain ⟨_, components, ⟨_, _, ⟨_, _, ⟨_, _, ⟨_, -, rfl⟩, -, rfl⟩, -, rfl⟩, -, rfl⟩,
      hcomponents, rfl⟩ := h
    exact ⟨m, hcomponents⟩
  | _ => cases h

/-- A checked schema names no place twice. -/
theorem distinctPlaces {d : Document} {s : Schema} (h : schema d = .valid s) :
    s.DistinctPlaces := by
  obtain ⟨_, hcomponents⟩ := exists_components h
  have hkeyed := keyed_of_withDefault (P := fun c => (Dict.keys c.elements).Nodup)
    (fun _ _ => nodup_elements) hcomponents
  have hplaces := Dict.nodup_places hkeyed.nodup Component.elements hkeyed.all
  simpa [Schema.DistinctPlaces, Schema.places, Dict.keys, List.map_flatMap, Function.comp_def]
    using hplaces

/-- Every element of a checked schema has passed its own check. -/
theorem exists_element {d : Document} {s : Schema} (h : schema d = .valid s)
    {component element : String} {e : Element} (he : (component, element, e) ∈ s.places) :
    ∃ d', Check.element d' = .valid e := by
  have hcomponent : ∀ d (c : Component), Check.component d = .valid c →
      Dict.Keyed (fun e => ∃ d', Check.element d' = .valid e) c.elements := by
    intro d c hc
    obtain ⟨members, hcheck, -⟩ := exists_of_closed hc
    obtain ⟨elements, helements, rfl⟩ := functor_map_eq_valid.1 hcheck
    exact keyed_of_withDefault (fun d e he => ⟨d, he⟩) helements
  obtain ⟨_, hcomponents⟩ := exists_components h
  have hkeyed := keyed_of_withDefault hcomponent hcomponents
  obtain ⟨⟨_, c⟩, hc, he⟩ := List.mem_flatMap.1 he
  obtain ⟨⟨_, _⟩, hmem, heq⟩ := List.mem_map.1 he
  cases heq
  exact (hkeyed.all _ _ hc).all _ _ hmem

end Check
end AtomicCss

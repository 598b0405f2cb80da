import AtomicCss.Keys.Tree
import AtomicCss.Proofs.Dict
import AtomicCss.Proofs.Results

/-!
# Trees of compiled schemas

Compiling a schema gives a tree with one entry for each element. Every entry holds the keys of an
element of the schema, and if it has palettes, the tone metadata at its place is that of the same
element.
-/
namespace AtomicCss

namespace Document

theorem mem_of_get? {members : List (Scalar × Document)} {k : String} {d : Document}
    (h : get? members k = some d) : (.text k, d) ∈ members := by
  induction members with
  | nil => cases h
  | cons m members ih =>
    obtain ⟨j, e⟩ := m
    cases j with
    | text j =>
      rw [get?] at h
      split at h
      · next hj =>
        cases h
        rw [hj]
        exact List.mem_cons_self
      · exact List.mem_cons_of_mem _ (ih h)
    | _ => exact List.mem_cons_of_mem _ (ih h)

theorem get?_of_mem {members : List (Scalar × Document)} (hd : (members.map (·.1)).Nodup)
    {k : String} {d : Document} (h : (.text k, d) ∈ members) : get? members k = some d := by
  induction members with
  | nil => cases h
  | cons m members ih =>
    obtain ⟨j, e⟩ := m
    rw [List.map_cons, List.nodup_cons] at hd
    obtain ⟨hj, hd⟩ := hd
    rcases List.mem_cons.1 h with heq | hmem
    · cases heq
      simp [get?]
    · have hne : j ≠ .text k := fun hjk => hj (hjk ▸ List.mem_map.2 ⟨_, hmem, rfl⟩)
      cases j with
      | text j =>
        rw [get?, if_neg fun hjk => hne (congrArg Scalar.text hjk)]
        exact ih hd hmem
      | _ => exact ih hd hmem

theorem member?_eq_some {members : List (Scalar × Document)} {k : String} {d : Document} :
    member? members k = some d ↔ get? members k = some d ∧ d.isNull = false := by
  rw [member?, Option.filter_eq_some_iff, Bool.not_eq_true']

end Document

namespace KeyTree

theorem mem_entries {t : KeyTree} {component element : String} {e : Entry} :
    (component, element, e) ∈ t.entries
      ↔ ∃ elements, (component, elements) ∈ t ∧ (element, e) ∈ elements := by
  simp [entries]

theorem mem_entries_iff {t : KeyTree} (ht : Dict.Distinct t) {component element : String}
    {e : Entry} : (component, element, e) ∈ t.entries ↔ Dict.at? t component element = some e := by
  rw [mem_entries, Dict.at?_eq_some_iff ht]

theorem nodup_places {t : KeyTree} (ht : Dict.Distinct t) :
    (t.entries.map fun (component, element, _) => (component, element)).Nodup := by
  have hplaces := Dict.nodup_places ht.nodup (fun elements => elements) ht.all
  simpa [entries, Dict.keys, List.map_flatMap, Function.comp_def] using hplaces

def paletteNames (t : KeyTree) : List String :=
  t.entries.flatMap fun (_, _, e) => Dict.keys (e.palettes.getD [])

theorem mem_paletteNames {t : KeyTree} {palette : String} :
    palette ∈ t.paletteNames ↔ ∃ component element e roles,
      (component, element, e) ∈ t.entries ∧ (palette, roles) ∈ e.palettes.getD [] := by
  simp [paletteNames, Dict.keys]

theorem mem_keys {t : KeyTree} {key : String} :
    key ∈ t.keys ↔ ∃ component element e, (component, element, e) ∈ t.entries ∧ key ∈ e.keys := by
  simp [keys]

theorem mem_keys_of_mem {t : KeyTree} {component element : String} {e : Entry}
    (he : (component, element, e) ∈ t.entries) {key : String} (hk : key ∈ e.keys) : key ∈ t.keys :=
  mem_keys.2 ⟨component, element, e, he, hk⟩

end KeyTree

namespace Entry

theorem mem_bucketKeys {b : Option Buckets} {key : String} :
    key ∈ bucketKeys b ↔ ∃ label keys, (label, keys) ∈ b.getD [] ∧ key ∈ keys := by
  simp only [bucketKeys, List.mem_flatten, List.mem_map, Prod.exists]
  constructor
  · rintro ⟨_, ⟨label, labelled, hm, rfl⟩, hk⟩
    exact ⟨label, labelled, hm, hk⟩
  · rintro ⟨label, labelled, hm, hk⟩
    exact ⟨labelled, ⟨label, labelled, hm, rfl⟩, hk⟩

theorem mem_keys {e : Entry} {key : String} :
    key ∈ e.keys ↔ key ∈ e.decorations.getD [] ∨ key ∈ bucketKeys e.scales
      ∨ key ∈ bucketKeys e.effects ∨ key ∈ e.paletteKeys := by
  simp only [keys, List.mem_append]
  tauto

end Entry

def Schema.places (s : Schema) : List (String × String × Element) :=
  s.components.flatMap fun (component, spec) =>
    spec.elements.map fun (element, e) => (component, element, e)

/-- No place of a schema is named twice, as in every schema that a check gives. -/
def Schema.DistinctPlaces (s : Schema) : Prop :=
  (s.places.map fun (component, element, _) => (component, element)).Nodup

instance (s : Schema) : Decidable s.DistinctPlaces := inferInstanceAs (Decidable (List.Nodup _))

namespace Compiled

theorem ofSchema_eq (s : Schema) :
    ofSchema s
      = s.places.foldlM (fun c (component, element, e) => c.add component element e) {} := by
  rw [Schema.places, foldlM_flatMap]
  simp only [List.foldlM_map]
  rfl

/-- What a compilation has of some elements: an entry for each, made from one of them at its place
together with the tone metadata there. -/
structure Faithful (places : List (String × String × Element)) (c : Compiled) : Prop where
  tree : Dict.Distinct c.tree
  sound : ∀ component element entry, Dict.at? c.tree component element = some entry →
    ∃ e section?, (component, element, e) ∈ places ∧ entryOf e = .ok (entry, section?)
      ∧ ∀ p, section? = some p → Dict.at? c.tones component element = some p.tones
  complete : ∀ component element e, (component, element, e) ∈ places →
    (Dict.at? c.tree component element).isSome

/-- Whether and what an element gives does not depend on what has been compiled before. -/
theorem element_eq (c : Compiled) (component element : String) (e : Element) :
    c.element component element e = (entryOf e).map fun (entry, section?) =>
      (entry, c.record component element section?) := by
  rw [Compiled.element, step, entryOf]
  cases entryBeforeEffects e with
  | error _ => rfl
  | ok before => cases effectKeys e <;> rfl

theorem add_eq_ok {c c' : Compiled} {component element : String} {e : Element} :
    c.add component element e = .ok c' ↔ ∃ entry section?, entryOf e = .ok (entry, section?)
      ∧ c' = { c.record component element section? with
                tree := c.tree.update component fun elements =>
                  (elements.getD []).set element entry } := by
  have htree : ∀ section?, (c.record component element section?).tree = c.tree := by
    intro section?
    cases section? <;> rfl
  simp only [add, element_eq, bind_eq_ok, mapError_eq_ok, map_eq_ok, pure_eq_ok, Prod.exists]
  constructor
  · rintro ⟨_, _, ⟨entry, section?, he, hp⟩, rfl⟩
    obtain ⟨rfl, rfl⟩ := Prod.mk.inj hp
    exact ⟨entry, section?, he, by rw [htree]⟩
  · rintro ⟨entry, section?, he, rfl⟩
    exact ⟨entry, _, ⟨entry, section?, he, rfl⟩, by rw [htree]⟩

/-- Recording changes the metadata at no other place. -/
theorem at?_tones_record (c : Compiled) {component element component' element' : String}
    (h : ¬(component = component' ∧ element = element')) (section? : Option Keys.PaletteSection) :
    Dict.at? (c.record component element section?).tones component' element'
      = Dict.at? c.tones component' element' := by
  cases section? with
  | none => rfl
  | some p => exact (Dict.at?_update_set c.tones _ _ _ _ p.tones).trans (if_neg h)

theorem Faithful.add {places : List (String × String × Element)} {c c' : Compiled}
    (hc : c.Faithful places) {component element : String} {e : Element}
    (h : c.add component element e = .ok c') :
    c'.Faithful (places ++ [(component, element, e)]) := by
  obtain ⟨entry, section?, he, rfl⟩ := add_eq_ok.1 h
  refine ⟨Dict.Distinct.update_set hc.tree component element entry, ?_, ?_⟩
  · intro component' element' entry' h'
    rw [Dict.at?_update_set] at h'
    split at h'
    · next hplace =>
      obtain ⟨rfl, rfl⟩ := hplace
      cases h'
      refine ⟨e, section?, by simp, he, fun p hp => ?_⟩
      subst hp
      exact (Dict.at?_update_set c.tones _ _ _ _ p.tones).trans (if_pos ⟨rfl, rfl⟩)
    · next hplace =>
      obtain ⟨e', section?', hmem, he', htones⟩ := hc.sound _ _ _ h'
      refine ⟨e', section?', List.mem_append_left _ hmem, he', fun p hp => ?_⟩
      rw [← htones p hp]
      exact c.at?_tones_record hplace section?
  · intro component' element' e' h'
    rw [Dict.at?_update_set]
    split
    · rfl
    · next hplace =>
      rcases List.mem_append.1 h' with h' | h'
      · exact hc.complete _ _ _ h'
      · simp only [List.mem_singleton, Prod.mk.injEq] at h'
        exact absurd ⟨h'.1.symm, h'.2.1.symm⟩ hplace

theorem faithful_empty : Faithful [] {} where
  tree := Dict.Keyed.nil
  sound := by simp [Dict.at?]
  complete := by simp

/-- A compiled schema is faithful to its elements. -/
theorem ofSchema_faithful {s : Schema} {c : Compiled} (h : ofSchema s = .ok c) :
    c.Faithful s.places := by
  rw [ofSchema_eq] at h
  exact foldlM_invariant (P := Faithful) (fun _ _ _ _ hc h => hc.add h) faithful_empty h

theorem Faithful.exists_entry {s : Schema} {c : Compiled} (hc : c.Faithful s.places)
    (hs : s.DistinctPlaces) {component element : String} {e : Element}
    (h : (component, element, e) ∈ s.places) :
    ∃ entry section?, Dict.at? c.tree component element = some entry
      ∧ entryOf e = .ok (entry, section?) := by
  obtain ⟨entry, hentry⟩ := Option.isSome_iff_exists.1 (hc.complete _ _ _ h)
  obtain ⟨e', section?, hmem, he', -⟩ := hc.sound _ _ _ hentry
  have : (component, element, e') = (component, element, e) :=
    List.inj_on_of_nodup_map hs hmem h rfl
  cases this
  exact ⟨entry, section?, hentry, he'⟩

end Compiled
end AtomicCss

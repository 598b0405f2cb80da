import AtomicCss.Proofs.Build
import AtomicCss.Proofs.ReorderedColors
import AtomicCss.Proofs.ReorderedKeys
import Mathlib.Data.Prod.Lex

/-!
# The trees of reordered schemas

Schemas that agree up to the order of members have trees with the same keys at the same places, each
as often. Usage counts keys and sorts them, so from there on nothing of the order is left.
-/
namespace AtomicCss

/-- Entries with the same keys in every section, in whatever order. -/
structure Entry.SameKeys (e f : Entry) : Prop extends e.SameColors f where
  decorations : e.decorations = f.decorations
  scales : (bucketKeys e.scales).Perm (bucketKeys f.scales)
  effects : (bucketKeys e.effects).Perm (bucketKeys f.effects)

namespace Entry.SameKeys

variable {e f : Entry} (h : e.SameKeys f)
include h

theorem hasPlain (key : String) : e.HasPlain key ↔ f.HasPlain key := by
  rw [HasPlain, HasPlain, h.decorations, h.scales.mem_iff]

theorem hasEffect (key : String) : e.HasEffect key ↔ f.HasEffect key := h.effects.mem_iff

theorem keys_perm : e.keys.Perm f.keys := by
  rw [Entry.keys, Entry.keys, h.decorations]
  exact ((h.effects.append_left _).append h.scales).append h.keys

end Entry.SameKeys

namespace Compiled

/-- Elements that agree up to order are compiled to the same keys, if those of the colors have
rules. -/
theorem SectionsOf.sameKeys {e f : Element} {entry entry' : Entry}
    {section? section?' : Option Keys.PaletteSection} (h : e.ReorderedTo f)
    (hkeys : ∀ x ∈ e.effects, x.DistinctKeys)
    (hrules : ∀ palette key, entry.HasColor palette key →
      (Rule.bracketed? key.toList).isSome = true)
    (he : SectionsOf e entry section?) (hf : SectionsOf f entry' section?') :
    entry.SameKeys entry' where
  toSameColors := he.sameColors h.palettes hrules hf
  decorations := by
    have hdecorations := he.decorations
    rw [h.decorations] at hdecorations
    exact Except.ok.inj (hdecorations.symm.trans hf.decorations)
  scales := he.scaleKeys_perm h.scales hf
  effects := he.effectKeys_perm h.effects hkeys hf

def entryAt (m : String × String × Element) : Except CompileError (String × String × Entry) := do
  pure (m.1, m.2.1, (← entryOf m.2.2).1)

theorem entryAt_eq_ok {m : String × String × Element} {n : String × String × Entry} :
    entryAt m = .ok n ↔ m.1 = n.1 ∧ m.2.1 = n.2.1
      ∧ ∃ section?, entryOf m.2.2 = .ok (n.2.2, section?) := by
  obtain ⟨component, element, entry⟩ := n
  simp only [entryAt, bind_eq_ok, pure_eq_ok, Prod.mk.injEq, Prod.exists]
  constructor
  · rintro ⟨_, section?, h, rfl, rfl, rfl⟩
    exact ⟨rfl, rfl, section?, h⟩
  · rintro ⟨rfl, rfl, section?, h⟩
    exact ⟨entry, section?, h, rfl, rfl, rfl⟩

/-- The entries of a tree are those of the elements, if no place is named twice. -/
theorem Faithful.exists_entries {s : Schema} {c : Compiled} (hc : c.Faithful s.places)
    (hs : s.DistinctPlaces) :
    ∃ entries, s.places.mapM entryAt = .ok entries ∧ c.tree.entries.Perm entries := by
  obtain ⟨entries, hentries⟩ : ∃ entries, s.places.mapM entryAt = .ok entries := by
    apply exists_mapM_ok
    rintro ⟨component, element, e⟩ he
    obtain ⟨entry, section?, -, hof⟩ := hc.exists_entry hs he
    exact ⟨(component, element, entry), entryAt_eq_ok.2 ⟨rfl, rfl, section?, hof⟩⟩
  have hnodup : entries.Nodup := by
    have hplaces : entries.map (fun n => (n.1, n.2.1)) = s.places.map fun m => (m.1, m.2.1) := by
      refine map_of_mapM_ok hentries fun m n h => ?_
      obtain ⟨hcomponent, helement, -⟩ := entryAt_eq_ok.1 h
      rw [hcomponent, helement]
    apply List.Nodup.of_map fun n => (n.1, n.2.1)
    rw [hplaces]
    exact hs
  refine ⟨entries, hentries, (List.perm_ext_iff_of_nodup ?_ hnodup).2 ?_⟩
  · exact (KeyTree.nodup_places hc.tree).of_map
  · rintro ⟨component, element, entry⟩
    rw [KeyTree.mem_entries_iff hc.tree, mem_mapM_ok hentries]
    constructor
    · intro hat
      obtain ⟨e, section?, hmem, hof, -⟩ := hc.sound _ _ _ hat
      exact ⟨_, hmem, entryAt_eq_ok.2 ⟨rfl, rfl, section?, hof⟩⟩
    · rintro ⟨⟨_, _, e⟩, hmem, hof⟩
      obtain ⟨rfl, rfl, section?, hof⟩ := entryAt_eq_ok.1 hof
      obtain ⟨entry', section?', hat, hof'⟩ := hc.exists_entry hs hmem
      cases hof.symm.trans hof'
      exact hat

end Compiled

/-- Every key of a palette of a tree ends with a bracketed list, as a color with a rule does. -/
def KeyTree.ColorsBracketed (t : KeyTree) : Prop :=
  ∀ component element entry, (component, element, entry) ∈ t.entries →
    ∀ palette key, entry.HasColor palette key → (Rule.bracketed? key.toList).isSome = true

/-- Schemas that agree up to order have trees with the same keys at the same places. -/
theorem Schema.ReorderedTo.entries_matched {s t : Schema} (h : s.ReorderedTo t)
    (hkeys : s.DistinctRadiusKeys) {c d : Compiled} (hc : c.Faithful s.places)
    (hd : d.Faithful t.places) (hcolors : c.tree.ColorsBracketed) :
    Matched (fun m n => m.2.2.SameKeys n.2.2) c.tree.entries d.tree.entries := by
  obtain ⟨entries, hentries, hperm⟩ := hc.exists_entries h.distinctPlaces
  obtain ⟨entries', hentries', hperm'⟩ := hd.exists_entries h.symm_distinctPlaces
  apply (Matched.perm_left · hperm)
  apply (Matched.perm_right · hperm')
  refine h.places.mem.of_mapM ?_ hentries hentries'
  rintro ⟨component, element, e⟩ ⟨component', element', f⟩ ⟨_, _, entry⟩ ⟨_, _, entry'⟩
    ⟨⟨hmem, -⟩, -, hef⟩ hentry he hf
  obtain ⟨rfl, rfl, section?, he⟩ := Compiled.entryAt_eq_ok.1 he
  obtain ⟨rfl, rfl, section?', hf⟩ := Compiled.entryAt_eq_ok.1 hf
  exact (Compiled.sectionsOf he).sameKeys hef (hkeys _ hmem)
    (hcolors _ _ _ (hperm.mem_iff.2 hentry)) (Compiled.sectionsOf hf)

theorem KeyTree.keys_perm {t u : KeyTree}
    (h : Matched (fun m n => m.2.2.SameKeys n.2.2) t.entries u.entries) : t.keys.Perm u.keys :=
  matched_eq_iff.1 (h.flatMap fun _ _ hmn => matched_eq_iff.2 hmn.keys_perm)

namespace Usage

theorem get?_foldl_count (keys : List String) (counts : Dict Nat) (k : String) :
    Dict.get? (keys.foldl count counts) k
      = if k ∈ keys then some ((Dict.get? counts k).getD 0 + keys.count k)
        else Dict.get? counts k := by
  induction keys generalizing counts with
  | nil => simp
  | cons key keys ih =>
    rw [List.foldl_cons, ih, count, Dict.get?_update]
    by_cases hkey : key = k
    · subst hkey
      by_cases hmem : key ∈ keys
      · simp [hmem]
        omega
      · simp [hmem, List.count_eq_zero_of_not_mem hmem]
    · simp [hkey, Ne.symm hkey]

/-- The place of a counted key: by falling use, and then by its text. -/
def rank (a : String × Nat) : Natᵒᵈ ×ₗ String := toLex (OrderDual.toDual a.2, a.1)

theorem before_iff (a b : String × Nat) : before a b = true ↔ rank a ≤ rank b := by
  rw [before, rank, rank, Prod.Lex.toLex_le_toLex]
  by_cases h : a.2 = b.2
  · simp [h]
  · simp [h]

/-- The usage of keys does not depend on their order. -/
theorem ofKeys_eq_of_perm {keys keys' : List String} (h : keys.Perm keys') :
    ofKeys keys = ofKeys keys' := by
  apply mergeSort_eq_of_perm before_iff
  · rintro ⟨a, m⟩ - ⟨b, n⟩ - hab
    obtain ⟨rfl, rfl⟩ := Prod.mk.inj hab
    rfl
  · have hnodup := fun keys => nodup_keys_foldl_count keys Dict.nodup_keys_nil
    refine Dict.perm_of_get? (hnodup keys) (hnodup keys') fun k => ?_
    rw [get?_foldl_count, get?_foldl_count, h.count_eq]
    simp only [h.mem_iff]

end Usage
end AtomicCss

import AtomicCss.Css.Stylesheet
import AtomicCss.Proofs.Tree

/-!
# Which rules a bundle holds

The core holds the rules of decorations and scales and those of effects that need no state, the
effects bundle holds the other rules of effects, and each palette holds the rules of its colors. No
key of a tree is without its rule.
-/
namespace AtomicCss

namespace Entry

def HasPlain (e : Entry) (key : String) : Prop :=
  key ∈ e.decorations.getD [] ∨ key ∈ bucketKeys e.scales

def HasEffect (e : Entry) (key : String) : Prop := key ∈ bucketKeys e.effects

def HasColor (e : Entry) (palette key : String) : Prop :=
  ∃ roles, (palette, roles) ∈ e.palettes.getD [] ∧ key ∈ BundleRules.roleKeys roles

theorem mem_keys_iff {e : Entry} {key : String} :
    key ∈ e.keys ↔ e.HasPlain key ∨ e.HasEffect key ∨ ∃ palette, e.HasColor palette key := by
  have hcolor : key ∈ e.paletteKeys ↔ ∃ palette, e.HasColor palette key := by
    simp [paletteKeys, HasColor, BundleRules.roleKeys]
  rw [mem_keys, hcolor, HasPlain, HasEffect]
  tauto

theorem HasPlain.mem_keys {e : Entry} {key : String} (h : e.HasPlain key) : key ∈ e.keys :=
  mem_keys_iff.2 (.inl h)

theorem HasEffect.mem_keys {e : Entry} {key : String} (h : e.HasEffect key) : key ∈ e.keys :=
  mem_keys_iff.2 (.inr (.inl h))

theorem HasColor.mem_keys {e : Entry} {palette key : String} (h : e.HasColor palette key) :
    key ∈ e.keys := mem_keys_iff.2 (.inr (.inr ⟨palette, h⟩))

end Entry

namespace BundleRules

variable {o : RuleOptions} {names : Dict String}

theorem paletteRules_eq_ok {palette : String} {roles : Dict Buckets} {c : String × List Rule} :
    paletteRules o names (palette, roles) = .ok c
      ↔ c.1 = palette ∧ (roleKeys roles).mapM (colorRule o names) = .ok c.2 := by
  obtain ⟨palette', rules⟩ := c
  simp only [paletteRules, bind_eq_ok, pure_eq_ok, Prod.mk.injEq]
  constructor
  · rintro ⟨_, h, rfl, rfl⟩
    exact ⟨rfl, h⟩
  · rintro ⟨rfl, h⟩
    exact ⟨rules, h, rfl, rfl⟩

/-- The rules of an element are those of its keys, and none of its keys is without. -/
structure EntryRules.Correct (o : RuleOptions) (names : Dict String) (e : Entry) (r : EntryRules) :
    Prop where
  core : ∀ rule, rule ∈ r.core ↔ ∃ key, Stylesheet.ruleOf o names key = .ok rule
    ∧ (e.HasPlain key ∨ e.HasEffect key ∧ Rule.isGated rule.body = false)
  effects : ∀ rule, rule ∈ r.effects ↔ ∃ key, Stylesheet.ruleOf o names key = .ok rule
    ∧ e.HasEffect key ∧ Rule.isGated rule.body = true
  named : ∀ key, e.HasPlain key ∨ e.HasEffect key →
    ∃ rule, Stylesheet.ruleOf o names key = .ok rule
  palettes : r.palettes.map (·.1) = Dict.keys (e.palettes.getD [])
  colors : ∀ palette rule, (∃ rules, (palette, rules) ∈ r.palettes ∧ rule ∈ rules)
    ↔ ∃ key, colorRule o names key = .ok rule ∧ e.HasColor palette key
  namedColors : ∀ palette key, e.HasColor palette key → ∃ rule, colorRule o names key = .ok rule

theorem entryRules_correct {e : Entry} {r : EntryRules} (h : entryRules o names e = .ok r) :
    r.Correct o names e := by
  simp only [entryRules, bind_eq_ok, pure_eq_ok] at h
  obtain ⟨decorations, hd, scales, hs, effects, he, palettes, hp, rfl⟩ := h
  refine ⟨?core, ?effects, ?named, ?palettes, ?colors, ?namedColors⟩
  case core =>
    intro rule
    simp only [List.mem_append, List.mem_filter, mem_mapM_ok hd, mem_mapM_ok hs, mem_mapM_ok he,
      Bool.not_eq_true', Entry.HasPlain, Entry.HasEffect]
    constructor
    · rintro ((⟨key, hk, hr⟩ | ⟨key, hk, hr⟩) | ⟨⟨key, hk, hr⟩, hg⟩)
      · exact ⟨key, hr, .inl (.inl hk)⟩
      · exact ⟨key, hr, .inl (.inr hk)⟩
      · exact ⟨key, hr, .inr ⟨hk, hg⟩⟩
    · rintro ⟨key, hr, (hk | hk) | ⟨hk, hg⟩⟩
      · exact .inl (.inl ⟨key, hk, hr⟩)
      · exact .inl (.inr ⟨key, hk, hr⟩)
      · exact .inr ⟨⟨key, hk, hr⟩, hg⟩
  case effects =>
    intro rule
    simp only [List.mem_filter, mem_mapM_ok he, Entry.HasEffect]
    constructor
    · rintro ⟨⟨key, hk, hr⟩, hg⟩
      exact ⟨key, hr, hk, hg⟩
    · rintro ⟨key, hr, hk, hg⟩
      exact ⟨⟨key, hk, hr⟩, hg⟩
  case named =>
    rintro key ((hk | hk) | hk)
    · exact (exists_of_mapM_ok hd hk).imp fun _ h => h.2
    · exact (exists_of_mapM_ok hs hk).imp fun _ h => h.2
    · exact (exists_of_mapM_ok he hk).imp fun _ h => h.2
  case palettes =>
    exact map_of_mapM_ok hp fun _ _ hc => (paletteRules_eq_ok.1 hc).1
  case colors =>
    intro palette rule
    simp only [mem_mapM_ok hp, Prod.exists, paletteRules_eq_ok, Entry.HasColor]
    constructor
    · rintro ⟨rules, ⟨_, roles, hm, rfl, hr⟩, hmem⟩
      obtain ⟨key, hk, hr⟩ := (mem_mapM_ok hr).1 hmem
      exact ⟨key, hr, roles, hm, hk⟩
    · rintro ⟨key, hr, roles, hm, hk⟩
      obtain ⟨c, -, hc⟩ := exists_of_mapM_ok hp hm
      have hrules := (paletteRules_eq_ok.1 hc).2
      exact ⟨c.2, ⟨palette, roles, hm, rfl, hrules⟩, (mem_mapM_ok hrules).2 ⟨key, hk, hr⟩⟩
  case namedColors =>
    rintro palette key ⟨roles, hm, hk⟩
    obtain ⟨c, -, hc⟩ := exists_of_mapM_ok hp hm
    exact (exists_of_mapM_ok (paletteRules_eq_ok.1 hc).2 hk).imp fun _ h => h.2

structure Correct (o : RuleOptions) (names : Dict String) (t : KeyTree) (r : BundleRules) :
    Prop where
  core : ∀ rule, rule ∈ r.core ↔ ∃ component element e key, (component, element, e) ∈ t.entries
    ∧ Stylesheet.ruleOf o names key = .ok rule
    ∧ (e.HasPlain key ∨ e.HasEffect key ∧ Rule.isGated rule.body = false)
  effects : ∀ rule, rule ∈ r.effects ↔ ∃ component element e key,
    (component, element, e) ∈ t.entries ∧ Stylesheet.ruleOf o names key = .ok rule
    ∧ e.HasEffect key ∧ Rule.isGated rule.body = true
  named : ∀ component element e key, (component, element, e) ∈ t.entries →
    e.HasPlain key ∨ e.HasEffect key → ∃ rule, Stylesheet.ruleOf o names key = .ok rule
  distinct : (Dict.keys r.palettes).Nodup
  palettes : ∀ palette, palette ∈ Dict.keys r.palettes ↔ palette ∈ t.paletteNames
  colors : ∀ palette rule, rule ∈ Dict.getD r.palettes palette [] ↔ ∃ component element e key,
    (component, element, e) ∈ t.entries ∧ colorRule o names key = .ok rule
    ∧ e.HasColor palette key
  namedColors : ∀ component element e palette key, (component, element, e) ∈ t.entries →
    e.HasColor palette key → ∃ rule, colorRule o names key = .ok rule

/-- Of the parts of a tree, those with a property come from the entries with a property that agrees
with it. -/
theorem exists_part_iff {t : KeyTree} {parts : List EntryRules}
    (h : t.entries.mapM (fun (_, _, e) => entryRules o names e) = .ok parts)
    {P : EntryRules → Prop} {Q : Entry → Prop}
    (hPQ : ∀ part e, EntryRules.Correct o names e part → (P part ↔ Q e)) :
    (∃ part ∈ parts, P part)
      ↔ ∃ component element e, (component, element, e) ∈ t.entries ∧ Q e := by
  constructor
  · rintro ⟨part, hpart, hP⟩
    obtain ⟨⟨component, element, e⟩, he, hr⟩ := (mem_mapM_ok h).1 hpart
    exact ⟨component, element, e, he, (hPQ part e (entryRules_correct hr)).1 hP⟩
  · rintro ⟨component, element, e, he, hQ⟩
    obtain ⟨part, hpart, hr⟩ := exists_of_mapM_ok h he
    exact ⟨part, hpart, (hPQ part e (entryRules_correct hr)).2 hQ⟩

theorem ofTree_correct {t : KeyTree} {r : BundleRules} (h : ofTree o names t = .ok r) :
    r.Correct o names t := by
  simp only [ofTree, bind_eq_ok, pure_eq_ok] at h
  obtain ⟨parts, hparts, rfl⟩ := h
  have hentry : ∀ component element e, (component, element, e) ∈ t.entries →
      ∃ part, EntryRules.Correct o names e part := by
    intro component element e he
    obtain ⟨part, -, hr⟩ := exists_of_mapM_ok hparts he
    exact ⟨part, entryRules_correct hr⟩
  refine ⟨?core, ?effects, ?named, ?distinct, ?palettes, ?colors, ?namedColors⟩
  case core =>
    intro rule
    rw [List.mem_flatMap, exists_part_iff hparts fun part e hc => hc.core rule]
    simp only [exists_and_left]
  case effects =>
    intro rule
    rw [List.mem_flatMap, exists_part_iff hparts fun part e hc => hc.effects rule]
    simp only [exists_and_left]
  case named =>
    intro component element e key he hk
    obtain ⟨part, hc⟩ := hentry component element e he
    exact hc.named key hk
  case distinct => exact Dict.nodup_keys_foldl_append _ Dict.nodup_keys_nil
  case palettes =>
    intro palette
    have hpalettes : ∀ part e, EntryRules.Correct o names e part →
        (palette ∈ part.palettes.map (·.1) ↔ palette ∈ Dict.keys (e.palettes.getD [])) :=
      fun part e hc => hc.palettes ▸ Iff.rfl
    rw [Dict.mem_keys_foldl_append, List.map_flatMap, List.mem_flatMap,
      exists_part_iff hparts hpalettes, KeyTree.paletteNames, List.mem_flatMap]
    simp only [Dict.keys, List.map_nil, List.not_mem_nil, false_or, Prod.exists]
  case colors =>
    intro palette rule
    have hcolors := exists_part_iff hparts fun part e hc => hc.colors palette rule
    rw [Dict.mem_getD_foldl_append]
    simp only [Dict.getD, Dict.get?_nil, Option.getD_none, List.not_mem_nil, false_or,
      List.mem_flatMap]
    constructor
    · rintro ⟨rules, ⟨part, hp, hm⟩, hr⟩
      obtain ⟨component, element, e, he, key, h⟩ := hcolors.1 ⟨part, hp, rules, hm, hr⟩
      exact ⟨component, element, e, key, he, h⟩
    · rintro ⟨component, element, e, key, he, h⟩
      obtain ⟨part, hp, rules, hm, hr⟩ := hcolors.2 ⟨component, element, e, he, key, h⟩
      exact ⟨rules, ⟨part, hp, hm⟩, hr⟩
  case namedColors =>
    intro component element e palette key he hk
    obtain ⟨part, hc⟩ := hentry component element e he
    exact hc.namedColors palette key hk

end BundleRules
end AtomicCss

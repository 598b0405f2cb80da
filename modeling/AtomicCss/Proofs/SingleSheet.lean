import AtomicCss.Proofs.Agreement
import AtomicCss.Proofs.FoldedSheets
import AtomicCss.Proofs.PaletteColors

/-!
# One sheet or several

A compiled tree can be written to one sheet or to bundles. The two walks visit its keys in different
orders, and the bundles ask for the color rule of a palette key where the sheet looks up the family
of the key. They fail on the same trees and give the same rules.
-/
namespace AtomicCss

/-- The families give a palette key its color rule. -/
theorem Compiled.SectionsOf.ruleOf_eq {e : Element} {entry : Entry}
    {section? : Option Keys.PaletteSection} (h : SectionsOf e entry section?)
    {palette key : String} (hk : entry.HasColor palette key) (o : RuleOptions)
    (names : Dict String) :
    Stylesheet.ruleOf o names key = BundleRules.colorRule o names key := by
  obtain ⟨c, -, json, hkey⟩ := h.exists_color hk
  exact Rule.ofKey_color (StyleKey.startsWith_of_encode hkey) _

/-- The rules of an entry fail at a key that has none, and for the same reason. -/
theorem Compiled.SectionsOf.exists_of_entryRules_error {e : Element} {entry : Entry}
    {section? : Option Keys.PaletteSection} (h : SectionsOf e entry section?) {o : RuleOptions}
    {names : Dict String} {err : RuleError}
    (herr : BundleRules.entryRules o names entry = .error err) :
    ∃ key ∈ entry.keys, Stylesheet.ruleOf o names key = .error err := by
  simp only [BundleRules.entryRules, bind_eq_error] at herr
  rcases herr with hd | ⟨_, -, hs | ⟨_, -, he | ⟨_, -, hp | ⟨_, -, hpure⟩⟩⟩⟩
  · obtain ⟨key, hk, hkey⟩ := exists_of_mapM_error hd
    exact ⟨key, Entry.mem_keys.2 (.inl hk), hkey⟩
  · obtain ⟨key, hk, hkey⟩ := exists_of_mapM_error hs
    exact ⟨key, Entry.mem_keys.2 (.inr (.inl hk)), hkey⟩
  · obtain ⟨key, hk, hkey⟩ := exists_of_mapM_error he
    exact ⟨key, Entry.HasEffect.mem_keys hk, hkey⟩
  · obtain ⟨⟨palette, roles⟩, hm, hrules⟩ := exists_of_mapM_error hp
    rw [BundleRules.paletteRules, bind_eq_error] at hrules
    rcases hrules with hrules | ⟨_, -, hpure⟩
    · obtain ⟨key, hk, hkey⟩ := exists_of_mapM_error hrules
      have hcolor : entry.HasColor palette key := ⟨roles, hm, hk⟩
      exact ⟨key, hcolor.mem_keys, (h.ruleOf_eq hcolor o names).trans hkey⟩
    · cases hpure
  · cases hpure

namespace Stylesheet

/-- One sheet and the bundles, as they are written, have the same rules, and the core and the
effects have none in common. -/
structure SameRules (combineMedia : Bool) (rules : List Rule) (r : BundleRules) : Prop where
  union : ∀ rule, rule ∈ written ⟨false, combineMedia⟩ rules
    ↔ rule ∈ written ⟨false, combineMedia⟩ r.core ∨ rule ∈ written ⟨true, combineMedia⟩ r.effects
      ∨ ∃ palette, rule ∈ written ⟨true, combineMedia⟩ (Dict.getD r.palettes palette [])
  apart : ∀ rule ∈ written ⟨false, combineMedia⟩ r.core,
    rule ∉ written ⟨true, combineMedia⟩ r.effects

/-- The same of the rules that are read from the texts. -/
structure ReadAlike (sheet : String) (bundles : Bundles) : Prop where
  union : ∀ rule, rule ∈ Rule.rulesIn sheet
    ↔ rule ∈ Rule.rulesIn bundles.core ∨ rule ∈ Rule.rulesIn bundles.effects
      ∨ ∃ palette css, bundles.palettes.get? palette = some css ∧ rule ∈ Rule.rulesIn css
  apart : ∀ rule ∈ Rule.rulesIn bundles.core, rule ∉ Rule.rulesIn bundles.effects

/-- What can be read from a sheet and from bundles is the same if the rules are. -/
theorem SameRules.readAlike {combineMedia : Bool} {rules : List Rule} {r : BundleRules}
    (h : SameRules combineMedia rules r) (hrules : ∀ rule ∈ rules, rule.Foldable) :
    ReadAlike (text ⟨false, combineMedia⟩ rules) (.ofRules combineMedia r) := by
  obtain ⟨hunion, hapart⟩ := h
  simp only [mem_written] at hunion hapart
  have hcore : ∀ rule, rule ∈ Rule.rulesIn (text ⟨false, combineMedia⟩ r.core) ↔ rule ∈ r.core := by
    intro rule
    rw [rulesIn_text fun rule hr => hrules rule ((hunion rule).2 (.inl hr)), mem_ordered]
  have heffects : ∀ rule,
      rule ∈ Rule.rulesIn (text ⟨true, combineMedia⟩ r.effects) ↔ rule ∈ r.effects := by
    intro rule
    rw [rulesIn_text fun rule hr => hrules rule ((hunion rule).2 (.inr (.inl hr))), mem_ordered]
  have hpalettes : ∀ rule, (∃ palette css,
      Dict.get? (r.palettes.mapValues (text ⟨true, combineMedia⟩)) palette = some css
        ∧ rule ∈ Rule.rulesIn css) ↔ ∃ palette, rule ∈ Dict.getD r.palettes palette [] := by
    refine fun rule => exists_congr fun palette => ?_
    rw [Dict.get?_mapValues, Dict.getD]
    cases hpalette : Dict.get? r.palettes palette with
    | none => simp
    | some colors =>
      have hcolors : ∀ rule ∈ colors, rule.Foldable := fun rule hr =>
        hrules rule ((hunion rule).2 (.inr (.inr ⟨palette, by rwa [Dict.getD, hpalette]⟩)))
      simp [rulesIn_text hcolors, mem_ordered]
  constructor
  · intro rule
    rw [rulesIn_text hrules, mem_ordered, hunion, Bundles.ofRules, hcore, heffects, hpalettes]
  · intro rule hrule
    rw [Bundles.ofRules, hcore] at hrule
    rw [Bundles.ofRules, heffects]
    exact hapart rule hrule

end Stylesheet

namespace Compiled.Faithful

open Stylesheet (ruleOf)

variable {places : List (String × String × Element)} {c : Compiled} (hc : c.Faithful places)
  {o : RuleOptions}
include hc

/-- The bundles fail at a key that has no rule, and for the same reason. -/
theorem exists_of_ofTree_error {names : Dict String} {e : RuleError}
    (h : BundleRules.ofTree o names c.tree = .error e) :
    ∃ key ∈ c.tree.keys, ruleOf o names key = .error e := by
  rw [BundleRules.ofTree, bind_eq_error] at h
  rcases h with hentries | ⟨_, -, hpure⟩
  · obtain ⟨⟨component, element, entry⟩, he, hentry⟩ := exists_of_mapM_error hentries
    obtain ⟨_, _, hsections⟩ := hc.exists_sectionsOf he
    obtain ⟨key, hk, hkey⟩ := hsections.exists_of_entryRules_error hentry
    exact ⟨key, KeyTree.mem_keys_of_mem he hk, hkey⟩
  · cases hpure

/-- The bundles can be made just if every key has a rule of its family. -/
theorem exists_rules_iff {names : Dict String} :
    (∃ rules, c.tree.keys.mapM (ruleOf o names) = .ok rules)
      ↔ ∃ r, BundleRules.ofTree o names c.tree = .ok r := by
  constructor
  · rintro ⟨rules, hrules⟩
    by_contra hno
    obtain ⟨e, he⟩ := exists_error_iff.2 hno
    obtain ⟨key, hk, hkey⟩ := hc.exists_of_ofTree_error he
    obtain ⟨rule, -, hrule⟩ := exists_of_mapM_ok hrules hk
    rw [hkey] at hrule
    cases hrule
  · rintro ⟨r, hr⟩
    have hcorrect := BundleRules.ofTree_correct hr
    refine exists_mapM_ok fun key hk => ?_
    obtain ⟨component, element, entry, he, hk⟩ := KeyTree.mem_keys.1 hk
    rcases Entry.mem_keys_iff.1 hk with hk | hk | ⟨palette, hk⟩
    · exact hcorrect.named component element entry key he (.inl hk)
    · exact hcorrect.named component element entry key he (.inr hk)
    · obtain ⟨e, section?, hsections⟩ := hc.exists_sectionsOf he
      rw [hsections.ruleOf_eq hk]
      exact hcorrect.namedColors component element entry palette key he hk

/-- Every rule of the keys goes to a bundle, and the bundles have no others. -/
theorem mem_rules_iff {names : Dict String} {rules : List Rule}
    (hrules : c.tree.keys.mapM (ruleOf o names) = .ok rules) {r : BundleRules}
    (hr : r.Correct o names c.tree) {rule : Rule} :
    rule ∈ rules ↔ rule ∈ r.core ∨ rule ∈ r.effects
      ∨ ∃ palette, rule ∈ Dict.getD r.palettes palette [] := by
  simp only [mem_mapM_ok hrules, hr.core, hr.effects, hr.colors]
  constructor
  · rintro ⟨key, hk, hrule⟩
    obtain ⟨component, element, entry, he, hk⟩ := KeyTree.mem_keys.1 hk
    rcases Entry.mem_keys_iff.1 hk with hk | hk | ⟨palette, hk⟩
    · exact .inl ⟨component, element, entry, key, he, hrule, .inl hk⟩
    · cases hgated : Rule.isGated rule.body with
      | false => exact .inl ⟨component, element, entry, key, he, hrule, .inr ⟨hk, rfl⟩⟩
      | true => exact .inr (.inl ⟨component, element, entry, key, he, hrule, hk, rfl⟩)
    · obtain ⟨e, section?, hsections⟩ := hc.exists_sectionsOf he
      rw [hsections.ruleOf_eq hk] at hrule
      exact .inr (.inr ⟨palette, component, element, entry, key, he, hrule, hk⟩)
  · rintro (⟨_, _, _, key, he, hrule, hk⟩ | ⟨_, _, _, key, he, hrule, hk, -⟩
      | ⟨palette, _, _, _, key, he, hrule, hk⟩)
    · exact ⟨key, KeyTree.mem_keys_of_mem he (hk.elim (·.mem_keys) (·.1.mem_keys)), hrule⟩
    · exact ⟨key, KeyTree.mem_keys_of_mem he hk.mem_keys, hrule⟩
    · obtain ⟨e, section?, hsections⟩ := hc.exists_sectionsOf he
      rw [← hsections.ruleOf_eq hk] at hrule
      exact ⟨key, KeyTree.mem_keys_of_mem he hk.mem_keys, hrule⟩

/-- A rule of the core is that of a decoration or a scale, or needs no state, and so is none of the
effects. -/
theorem notMem_effects_of_mem_core {r : BundleRules}
    (hr : r.Correct o (Usage.classNames c.tree) c.tree) {rule : Rule} (hrule : rule ∈ r.core) :
    rule ∉ r.effects := by
  obtain ⟨component, element, entry, key, he, hof, hk | ⟨-, hgated⟩⟩ := (hr.core rule).1 hrule
  · exact hr.notMem_effects hc he hk hof
  · intro heffect
    obtain ⟨-, -, -, -, -, -, -, hgated'⟩ := (hr.effects rule).1 heffect
    exact absurd (hgated.symm.trans hgated') (by decide)

theorem sameRules {rules : List Rule}
    (hrules : c.tree.keys.mapM (ruleOf o (Usage.classNames c.tree)) = .ok rules) {r : BundleRules}
    (hr : BundleRules.ofTree o (Usage.classNames c.tree) c.tree = .ok r) (combineMedia : Bool) :
    Stylesheet.SameRules combineMedia rules r := by
  have hcorrect := BundleRules.ofTree_correct hr
  constructor
  · intro rule
    simp only [Stylesheet.mem_written]
    exact hc.mem_rules_iff hrules hcorrect
  · intro rule hrule
    rw [Stylesheet.mem_written] at hrule ⊢
    exact hc.notMem_effects_of_mem_core hcorrect hrule

end Compiled.Faithful

namespace Stylesheet

/-- The sheet and the bundles of a compiled tree have the same rules, and one can be made just if
the other can. What is read from their texts is these rules, if none is on two lines. -/
theorem agreesWithBundles {s : Schema} {c : Compiled} (h : Compiled.ofSchema s = .ok c)
    (o : RuleOptions) (combineMedia : Bool) :
    ((∃ e, ofTree o (Usage.classNames c.tree) combineMedia c.tree = .error e)
      ↔ ∃ e, Bundles.ofTree o (Usage.classNames c.tree) combineMedia c.tree = .error e)
    ∧ ∀ sheet bundles, ofTree o (Usage.classNames c.tree) combineMedia c.tree = .ok sheet →
      Bundles.ofTree o (Usage.classNames c.tree) combineMedia c.tree = .ok bundles →
      ∃ rules r, c.tree.keys.mapM (ruleOf o (Usage.classNames c.tree)) = .ok rules
        ∧ BundleRules.ofTree o (Usage.classNames c.tree) c.tree = .ok r
        ∧ sheet = text ⟨false, combineMedia⟩ rules ∧ bundles = .ofRules combineMedia r
        ∧ SameRules combineMedia rules r
        ∧ ∀ table : BreakpointTable, o.queries = table.queries →
          (∀ rule ∈ rules, '\n' ∉ rule.body.toList) → ReadAlike sheet bundles := by
  have hc := Compiled.ofSchema_faithful h
  simp only [exists_error_iff, ofTree, Bundles.ofTree, bind_eq_ok, pure_eq_ok]
  constructor
  · rw [not_iff_not]
    constructor
    · rintro ⟨_, rules, hrules, rfl⟩
      obtain ⟨r, hr⟩ := hc.exists_rules_iff.1 ⟨rules, hrules⟩
      exact ⟨_, r, hr, rfl⟩
    · rintro ⟨_, r, hr, rfl⟩
      obtain ⟨rules, hrules⟩ := hc.exists_rules_iff.2 ⟨r, hr⟩
      exact ⟨_, rules, hrules, rfl⟩
  · rintro sheet bundles ⟨rules, hrules, rfl⟩ ⟨r, hr, rfl⟩
    have hsame := hc.sameRules hrules hr combineMedia
    refine ⟨rules, r, hrules, hr, rfl, rfl, hsame, fun table ho hline => ?_⟩
    refine hsame.readAlike fun rule hrule => ?_
    obtain ⟨key, -, hkey⟩ := (mem_mapM_ok hrules).1 hrule
    exact Rule.foldable_ofKey ho hkey (hline rule hrule)

theorem agreesWithBundles_fullBox : ∃ c sheet bundles, Compiled.ofSchema Build.fullBox = .ok c
    ∧ ofTree { force := true } (Usage.classNames c.tree) true c.tree = .ok sheet
    ∧ Bundles.ofTree { force := true } (Usage.classNames c.tree) true c.tree = .ok bundles
    ∧ ∃ rules r, sheet = text ⟨false, true⟩ rules ∧ bundles = .ofRules true r
      ∧ SameRules true rules r := by
  have hc : ((Compiled.ofSchema Build.fullBox).toOption.map fun c =>
      ((ofTree { force := true } (Usage.classNames c.tree) true c.tree).toOption.isSome,
        (Bundles.ofTree { force := true } (Usage.classNames c.tree) true c.tree).toOption.isSome))
      = some (true, true) := by decide +kernel
  obtain ⟨c, hc, hmade⟩ := exists_of_toOption_map hc
  obtain ⟨hsheet, hbundles⟩ := Prod.mk.inj hmade
  obtain ⟨sheet, hsheet⟩ := exists_of_isSome_toOption hsheet
  obtain ⟨bundles, hbundles⟩ := exists_of_isSome_toOption hbundles
  obtain ⟨rules, r, -, -, htext, hof, h, -⟩ :=
    (agreesWithBundles hc { force := true } true).2 sheet bundles hsheet hbundles
  exact ⟨c, sheet, bundles, hc, hsheet, hbundles, rules, r, htext, hof, h⟩

end Stylesheet
end AtomicCss

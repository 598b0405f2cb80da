import AtomicCss.Proofs.Agreement
import AtomicCss.Proofs.FoldedSheets
import AtomicCss.Proofs.OrderFree
import AtomicCss.Proofs.PaletteColors
import AtomicCss.Proofs.SingleSheet
import AtomicCss.Proofs.StateMarks

/-!
# What the sheets of a build say

The rules of every bundle can be read back from its text. Rules in states have texts of one line;
so have the others, unless a line break in the name of a font family breaks the line. What is read
is what the class maps of the build are about.
-/
namespace AtomicCss

namespace Rule

section InStates

variable {force : Bool} {className : String} {d : StyleKey.Decoded} {p : StyleProperty}
  {states : List ActiveState} {selectors : List Selector} {value : String} {r : Rule}
  (h : InStates force className d p states selectors value r)
include h

theorem InStates.head?_body : r.body.toList.head? = some '.' := by
  rw [h.body]
  exact head?_bodyOf (Selector.isFor_of_ofStates p.isGate h.made).1
    (fun _ => Selector.head?_text h.made) _ _

theorem InStates.line_notMem_body (hname : ClassName.IsWord className.toList) :
    '\n' ∉ r.body.toList := by
  have hstate : ∀ c ∈ Selector.stateConditions, '\n' ∉ c.text.toList := by decide
  have hcondition : ∀ c, Selector.IsCondition className c → '\n' ∉ c.text.toList := by
    rintro c (rfl | hc)
    · intro hline
      have hletter : '\n' ∈ className.toList := by simpa [SimpleSelector.text] using hline
      exact absurd (hname.2 _ hletter) (by simp)
    · exact hstate c hc
  have hselectors : '\n' ∉ (", ".intercalate (selectors.map Selector.text)).toList := by
    intro hline
    rcases Text.mem_intercalate hline with hline | ⟨_, hs, hline⟩
    · exact absurd hline (by decide)
    · obtain ⟨s, hmem, rfl⟩ := List.mem_map.1 hs
      rcases Selector.mem_text hline with hspace | ⟨c, hc, hline⟩
      · exact absurd hspace (by decide)
      · exact hcondition c (h.isCondition hmem hc) hline
  have hproperty := p.notMem_css.2.2
  rw [h.body, bodyOf]
  simpa [hproperty, h.line] using hselectors

theorem InStates.foldable (hname : ClassName.IsWord className.toList) : r.Foldable where
  body := h.head?_body
  line := h.line_notMem_body hname
  media query hquery := by
    obtain ⟨width, rfl⟩ := h.media query hquery
    exact MediaQueries.notMem_atLeast width

end InStates
end Rule

namespace Build

variable {s : Schema} {o : BuildOptions} {b : Build}

/-- Rules of the keys of a build that are in the states of their keys. -/
def AreStated (s : Schema) (o : BuildOptions) (b : Build) (rules : List Rule) : Prop :=
  ∀ r ∈ rules, ∃ key ∈ b.compiled.tree.keys, Stylesheet.ruleOf (rulesOf s o) b.names key = .ok r
    ∧ ∃ d p, Rule.IsInStates o.forceState (ClassName.of b.names key) key d p r

/-- What is read from the sheets of a build is the rules of its bundles. A line break in a core
rule, as the name of a font family can bring there, would break its line. -/
structure SheetsRead (b : Build) (combineMedia : Bool) : Prop where
  core : (∀ r ∈ b.rules.core, '\n' ∉ r.body.toList) →
    Rule.rulesIn b.sheets.core = b.coreRules combineMedia
  effects : Rule.rulesIn b.sheets.effects = b.effectRules combineMedia
  palettes : ∀ palette css, b.sheets.palettes.get? palette = some css →
    Rule.rulesIn css = b.paletteRules combineMedia palette

namespace MadeFrom

variable (h : b.MadeFrom s o)
include h

theorem areStated_effects : AreStated s o b b.rules.effects := by
  intro r hr
  obtain ⟨component, element, entry, key, he, hrule, hk, -⟩ := (h.correct.effects r).1 hr
  refine ⟨key, KeyTree.mem_keys_of_mem he hk.mem_keys, hrule, ?_⟩
  obtain ⟨_, _, hsections⟩ := h.faithful.exists_sectionsOf he
  rcases Entry.startsWith_of_effect hsections hk with hstart | hstart
  · rw [Stylesheet.ruleOf, Rule.ofKey_shadow hstart] at hrule
    obtain ⟨d, hd⟩ := Rule.exists_isInStates_ofShadow hrule
    exact ⟨d, _, hd⟩
  · rw [Stylesheet.ruleOf, Rule.ofKey_radius hstart] at hrule
    obtain ⟨d, hd⟩ := Rule.exists_isInStates_ofRadius rfl hrule
    exact ⟨d, _, hd⟩

theorem areStated_palette (palette : String) :
    AreStated s o b (Dict.getD b.rules.palettes palette []) := by
  intro r hr
  obtain ⟨component, element, entry, key, he, hrule, hk⟩ := (h.correct.colors palette r).1 hr
  obtain ⟨_, _, hsections⟩ := h.faithful.exists_sectionsOf he
  obtain ⟨d, p, hd⟩ := Rule.exists_isInStates_ofColor hrule
  refine ⟨key, KeyTree.mem_keys_of_mem he hk.mem_keys, ?_, d, _, hd⟩
  rw [hsections.ruleOf_eq hk]
  exact hrule

/-- The rules of a sheet are read back from its text in their order. -/
theorem rulesIn_of_areStated {rules : List Rule} (hrules : AreStated s o b rules)
    (combineMedia : Bool) : Rule.rulesIn (Stylesheet.text ⟨true, combineMedia⟩ rules)
      = Stylesheet.ordered true rules := by
  refine Stylesheet.rulesIn_text fun r hr => ?_
  obtain ⟨key, hk, -, d, p, -, -, _, _, _, hstates⟩ := hrules r hr
  exact hstates.foldable (h.isWord hk)

/-- The rule of a color is in the sheet of its palette. -/
theorem exists_mem_rulesIn {component element palette key : String} {e : Entry}
    (he : (component, element, e) ∈ b.compiled.tree.entries) (hk : e.HasColor palette key) :
    ∃ css r, b.sheets.palettes.get? palette = some css
      ∧ Stylesheet.ruleOf (rulesOf s o) b.names key = .ok r ∧ r ∈ Rule.rulesIn css := by
  obtain ⟨r, hr⟩ := h.correct.namedColors component element e palette key he hk
  obtain ⟨_, _, hsections⟩ := h.faithful.exists_sectionsOf he
  have hmem := (h.correct.colors palette r).2 ⟨component, element, e, key, he, hr, hk⟩
  have hpalette : palette ∈ b.compiled.tree.paletteNames :=
    KeyTree.mem_paletteNames.2 ⟨component, element, e, hk.imp fun _ hroles => ⟨he, hroles.1⟩⟩
  refine ⟨_, r, by rw [h.get?_palettes, if_pos hpalette], (hsections.ruleOf_eq hk _ _).trans hr, ?_⟩
  rwa [h.rulesIn_of_areStated (h.areStated_palette palette), Stylesheet.mem_ordered]

/-- The rules of every bundle are read back from its text. -/
theorem sheetsRead : b.SheetsRead o.combineMedia where
  core hline := by
    rw [h.sheets, coreRules, Stylesheet.written_eq]
    refine Stylesheet.rulesIn_text fun r hr => ?_
    obtain ⟨key, -, hkey⟩ := h.exists_key_of_mem_core hr
    exact Rule.foldable_ofKey rfl hkey (hline r hr)
  effects := by
    rw [h.sheets, effectRules, Stylesheet.written_eq]
    exact h.rulesIn_of_areStated h.areStated_effects o.combineMedia
  palettes palette css hcss := by
    rw [h.get?_palettes] at hcss
    obtain ⟨-, hcss⟩ := Option.ite_none_right_eq_some.1 hcss
    obtain rfl := Option.some.inj hcss
    rw [paletteRules, Stylesheet.written_eq]
    exact h.rulesIn_of_areStated (h.areStated_palette palette) o.combineMedia

end MadeFrom

open ClassMap (classesIn)
open Stylesheet (ruleCount)

/-- The class maps of a build and its sheets are about the same classes. -/
structure ClassesAgree (b : Build) (combineMedia : Bool) : Prop where
  /-- The sheets are those of the rules that the other parts are about. -/
  sheets : b.sheets = .ofRules combineMedia b.rules
  /-- What is read from the sheets is these rules. -/
  read : b.SheetsRead combineMedia
  names : ∀ j ∈ b.compiled.tree.keys, ∀ k ∈ b.compiled.tree.keys,
    ClassName.of b.names j = ClassName.of b.names k → j = k
  plain : ∀ component element record className, b.coreRecord? component element = some record →
    className ∈ classesIn record "d" ∨ className ∈ classesIn record "s" →
    ruleCount (b.coreRules combineMedia) className = 1
      ∧ ruleCount (b.effectRules combineMedia) className = 0
  effects : ∀ component element record className, b.coreRecord? component element = some record →
    className ∈ classesIn record "e" ∨ className ∈ classesIn record "c" →
    ruleCount (b.coreRules combineMedia) className
      + ruleCount (b.effectRules combineMedia) className = 1
  colors : ∀ palette component element record className,
    b.paletteRecord? palette component element = some record →
    className ∈ classesIn record "p" ∨ className ∈ classesIn record "c" →
    ruleCount (b.paletteRules combineMedia palette) className = 1
  ruled : ∀ rule, rule ∈ b.coreRules combineMedia ∨ rule ∈ b.effectRules combineMedia →
    ∃ component element record, b.coreRecord? component element = some record
      ∧ ∃ field ∈ ["d", "s", "e", "c"], Rule.styledClass rule.body ∈ classesIn record field
  colored : ∀ palette, ∀ rule ∈ b.paletteRules combineMedia palette,
    ∃ component element record, b.paletteRecord? palette component element = some record
      ∧ ∃ field ∈ ["p", "c"], Rule.styledClass rule.body ∈ classesIn record field
  palettes : ∀ palette, palette ∈ Dict.keys b.sheets.palettes
    ↔ palette ∈ Dict.keys b.splitMap.paletteValues

/-- The class maps of every build agree with its sheets. -/
theorem classesAgree (h : ofSchema s o = .ok b) : b.ClassesAgree o.combineMedia := by
  replace h := madeFrom h
  refine ⟨h.sheets, h.sheetsRead, fun _ hj _ hk => h.names_inj hj hk, ?plain, ?effects, ?colors,
    ?ruled, ?colored, fun palette => h.mem_palettes.trans h.mem_paletteValues.symm⟩
  case plain =>
    intro component element record className hrecord hclass
    obtain ⟨entry, he, rfl⟩ := h.coreRecord?_eq_some.1 hrecord
    obtain ⟨key, hk, rfl⟩ := (h.mem_classesIn_plain he).1 hclass
    exact h.ruleCount_plain he hk _
  case effects =>
    intro component element record className hrecord hclass
    obtain ⟨entry, he, rfl⟩ := h.coreRecord?_eq_some.1 hrecord
    obtain ⟨key, hk, rfl⟩ := (h.mem_classesIn_effects he).1 hclass
    exact h.ruleCount_effect he hk _
  case colors =>
    intro palette component element record className hrecord hclass
    obtain ⟨entry, roles, he, hp, rfl⟩ := h.paletteRecord?_eq_some.1 hrecord
    obtain ⟨key, hk, rfl⟩ := (h.mem_classesIn_color he hp).1 hclass
    exact h.ruleCount_color he ⟨roles, hp, hk⟩ _
  case ruled =>
    rintro rule (hr | hr)
    · rw [coreRules, Stylesheet.mem_written, h.correct.core] at hr
      obtain ⟨component, element, entry, key, he, hr, hk⟩ := hr
      exact h.exists_coreRecord he (hk.imp id And.left) hr
    · rw [effectRules, Stylesheet.mem_written, h.correct.effects] at hr
      obtain ⟨component, element, entry, key, he, hr, hk, -⟩ := hr
      exact h.exists_coreRecord he (.inr hk) hr
  case colored =>
    intro palette rule hr
    rw [paletteRules, Stylesheet.mem_written, h.correct.colors] at hr
    obtain ⟨component, element, entry, key, he, hr, hk⟩ := hr
    exact h.exists_paletteRecord he hk hr

theorem classesAgree_fullBox : ∃ b, ofSchema fullBox {} = .ok b ∧ b.ClassesAgree true := by
  have hb : ((ofSchema fullBox {}).toOption.map fun b => b.compiled.tree.keys.length)
      = some 7 := by decide +kernel
  obtain ⟨b, hb, -⟩ := exists_of_toOption_map hb
  exact ⟨b, hb, classesAgree hb⟩

end Build
end AtomicCss

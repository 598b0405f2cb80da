import AtomicCss.Proofs.Build
import AtomicCss.Proofs.Gating
import AtomicCss.Proofs.Listing

/-!
# Class maps and stylesheets agree

Four walks over a compiled schema decide which classes there are: over its keys for their names,
over its entries for the rules of each bundle, and again for the records of the core map and of each
palette. Every class in a record has just one rule in the bundles where it belongs, and every rule
of a bundle has its class in a record that goes with the bundle.
-/
namespace AtomicCss.Build

def coreRules (b : Build) (combineMedia : Bool) : List Rule :=
  Stylesheet.written ⟨false, combineMedia⟩ b.rules.core

def effectRules (b : Build) (combineMedia : Bool) : List Rule :=
  Stylesheet.written ⟨true, combineMedia⟩ b.rules.effects

def paletteRules (b : Build) (combineMedia : Bool) (palette : String) : List Rule :=
  Stylesheet.written ⟨true, combineMedia⟩ (b.rules.palettes.getD palette [])

def coreRecord? (b : Build) (component element : String) : Option Value :=
  b.splitMap.coreValue.at? [component, element]

def paletteRecord? (b : Build) (palette component element : String) : Option Value :=
  (b.splitMap.paletteValues.get? palette).bind fun v => v.at? [component, element]

open ClassMap (classesIn)
open Stylesheet (ruleCount)

namespace MadeFrom

variable {s : Schema} {o : BuildOptions} {b : Build} (h : b.MadeFrom s o)
include h

theorem exists_sections {component element : String} {entry : Entry}
    (he : (component, element, entry) ∈ b.compiled.tree.entries) :
    ∃ e section?, Compiled.SectionsOf e entry section?
      ∧ ∀ p, section? = some p → Dict.at? b.compiled.tones component element = some p.tones := by
  obtain ⟨e, section?, -, hentry, htones⟩ :=
    h.faithful.sound component element entry ((KeyTree.mem_entries_iff h.faithful.tree).1 he)
  exact ⟨e, section?, Compiled.sectionsOf hentry, htones⟩

theorem coreRecord?_eq_some {component element : String} {record : Value} :
    b.coreRecord? component element = some record ↔ ∃ entry,
      (component, element, entry) ∈ b.compiled.tree.entries
        ∧ record = (ClassMap.coreRecord b.names entry).toValue := by
  have hmap := Dict.at?_map (ClassMap.coreRecord b.names) b.compiled.tree component element
  have hcore : b.splitMap.core = b.compiled.tree.map fun p =>
      (p.1, p.2.map fun e => (e.1, ClassMap.coreRecord b.names e.2)) := by
    rw [h.splitMap]
    rfl
  rw [coreRecord?, ClassMap.Split.coreValue, ClassMap.at?_nested, hcore, hmap, Option.map_map,
    Option.map_eq_some_iff]
  simp only [KeyTree.mem_entries_iff h.faithful.tree, Function.comp_apply, eq_comm (a := record)]

theorem paletteRecord?_eq_some {palette component element : String} {record : Value} :
    b.paletteRecord? palette component element = some record ↔ ∃ entry roles,
      (component, element, entry) ∈ b.compiled.tree.entries
        ∧ (palette, roles) ∈ entry.palettes.getD []
        ∧ record = (ClassMap.recordOf b.names b.compiled.tones component element palette
          roles).toValue := by
  have hpalettes : ∀ component element entry,
      (component, element, entry) ∈ b.compiled.tree.entries →
        (Dict.keys (entry.palettes.getD [])).Nodup := by
    intro component element entry he
    obtain ⟨e, section?, hsections, -⟩ := h.exists_sections he
    exact hsections.nodup_palettes
  have hvalues : b.paletteRecord? palette component element
      = (ClassMap.record? b.splitMap.palettes palette component element).map
        ClassMap.PaletteRecord.toValue := by
    have hget : Dict.get? b.splitMap.paletteValues palette
        = (Dict.get? b.splitMap.palettes palette).map
          (ClassMap.nested ClassMap.PaletteRecord.toValue) := Dict.get?_map (fun _ => _) _ palette
    rw [paletteRecord?, hget, ClassMap.record?]
    cases Dict.get? b.splitMap.palettes palette with
    | none => rfl
    | some d => exact ClassMap.at?_nested _ d component element
  rw [hvalues, Option.map_eq_some_iff, h.splitMap]
  simp only [ClassMap.record?_split h.faithful.tree hpalettes]
  constructor
  · rintro ⟨_, ⟨entry, roles, he, hp, rfl⟩, rfl⟩
    exact ⟨entry, roles, he, hp, rfl⟩
  · rintro ⟨entry, roles, he, hp, rfl⟩
    exact ⟨_, ⟨entry, roles, he, hp, rfl⟩, rfl⟩

theorem isWord {key : String} (hk : key ∈ b.compiled.tree.keys) :
    ClassName.IsWord (ClassName.of b.names key).toList := by
  rw [h.names]
  exact Usage.isWord_classNames hk

/-- What the fields of an element's core record list. -/
theorem mem_classesIn_plain {component element : String} {entry : Entry}
    (he : (component, element, entry) ∈ b.compiled.tree.entries) {c : String} :
    c ∈ classesIn (ClassMap.coreRecord b.names entry).toValue "d"
        ∨ c ∈ classesIn (ClassMap.coreRecord b.names entry).toValue "s"
      ↔ ∃ key, entry.HasPlain key ∧ ClassName.of b.names key = c := by
  have hwords : ∀ key ∈ entry.keys, ClassName.IsWord (ClassName.of b.names key).toList :=
    fun _ hk => h.isWord (KeyTree.mem_keys_of_mem he hk)
  rw [ClassMap.mem_decorationClasses hwords, ClassMap.mem_scaleClasses hwords]
  simp only [Entry.HasPlain, or_and_right, exists_or]

theorem mem_classesIn_effects {component element : String} {entry : Entry}
    (he : (component, element, entry) ∈ b.compiled.tree.entries) {c : String} :
    c ∈ classesIn (ClassMap.coreRecord b.names entry).toValue "e"
        ∨ c ∈ classesIn (ClassMap.coreRecord b.names entry).toValue "c"
      ↔ ∃ key, entry.HasEffect key ∧ ClassName.of b.names key = c :=
  ClassMap.mem_effectClasses fun _ hk => h.isWord (KeyTree.mem_keys_of_mem he hk)

theorem mem_classesIn_color {palette component element : String} {entry : Entry}
    {roles : Dict Buckets} (he : (component, element, entry) ∈ b.compiled.tree.entries)
    (hp : (palette, roles) ∈ entry.palettes.getD []) {c : String} :
    c ∈ classesIn (ClassMap.recordOf b.names b.compiled.tones component element palette
        roles).toValue "p"
        ∨ c ∈ classesIn (ClassMap.recordOf b.names b.compiled.tones component element palette
          roles).toValue "c"
      ↔ ∃ key ∈ BundleRules.roleKeys roles, ClassName.of b.names key = c := by
  obtain ⟨e, section?, hsections, htones⟩ := h.exists_sections he
  obtain ⟨es, p, hsection, hkeys, hp'⟩ := hsections.exists_emissions hp
  have hrecord : ClassMap.recordOf b.names b.compiled.tones component element palette roles
      = ClassMap.paletteRecord b.names roles
        (Dict.getD (es.foldl Keys.fileByTrack []) palette []) := by
    rw [ClassMap.recordOf, Dict.getD_getD_eq b.compiled.tones, htones p hsection, hp',
      Option.getD_some]
  have hlists : ∀ c, ClassMap.Lists (ClassMap.paletteRecord b.names roles
        (Dict.getD (es.foldl Keys.fileByTrack []) palette [])).plain c
      ∨ ClassMap.Lists (ClassMap.paletteRecord b.names roles
        (Dict.getD (es.foldl Keys.fileByTrack []) palette [])).selected c
      ↔ ∃ key ∈ BundleRules.roleKeys roles, ClassName.of b.names key = c := fun _ =>
    ClassMap.lists_paletteRecord fun _ _ _ _ hr hl _ =>
      Keys.mem_tracksOf (by rwa [hkeys] at hp) hr hl
  have hcolor : ∀ key ∈ BundleRules.roleKeys roles, entry.HasColor palette key := fun _ hk =>
    ⟨roles, hp, hk⟩
  rw [hrecord, ← hlists]
  refine ClassMap.mem_classesIn_palette fun c hc => ?_
  obtain ⟨key, hk, rfl⟩ := (hlists c).1 hc
  exact h.isWord (KeyTree.mem_keys_of_mem he (hcolor key hk).mem_keys)

theorem styledClass_ruleOf {key : String} (hk : key ∈ b.compiled.tree.keys) {r : Rule}
    (hr : Stylesheet.ruleOf (rulesOf s o) b.names key = .ok r) :
    Rule.styledClass r.body = ClassName.of b.names key :=
  (Rule.isOn_ofKey hr).styledClass (h.isWord hk)

theorem styledClass_colorRule {key : String} (hk : key ∈ b.compiled.tree.keys) {r : Rule}
    (hr : BundleRules.colorRule (rulesOf s o) b.names key = .ok r) :
    Rule.styledClass r.body = ClassName.of b.names key :=
  (Rule.isOn_ofColor hr).styledClass (h.isWord hk)

theorem names_inj {j k : String} (hj : j ∈ b.compiled.tree.keys) (hk : k ∈ b.compiled.tree.keys)
    (heq : ClassName.of b.names j = ClassName.of b.names k) : j = k := by
  rw [h.names] at heq
  exact Usage.classNames_inj hj hk heq

section Count

variable {f : String → Except RuleError Rule}
  (hf : ∀ key ∈ b.compiled.tree.keys, ∀ r, f key = .ok r →
    Rule.styledClass r.body = ClassName.of b.names key)
  {rules : List Rule} (hrules : ∀ r ∈ rules, ∃ key ∈ b.compiled.tree.keys, f key = .ok r)
  {key : String} (hk : key ∈ b.compiled.tree.keys)
include hf hrules hk

theorem eq_of_styledClass {r : Rule} (hr : r ∈ rules)
    (hclass : Rule.styledClass r.body = ClassName.of b.names key) : f key = .ok r := by
  obtain ⟨key', hk', hr'⟩ := hrules r hr
  obtain rfl := h.names_inj hk' hk ((hf key' hk' r hr').symm.trans hclass)
  exact hr'

/-- The rule of a key is the one rule on its class, wherever it stands. -/
theorem ruleCount_written (options : SheetOptions) {r : Rule} (hr : f key = .ok r) :
    ruleCount (Stylesheet.written options rules) (ClassName.of b.names key)
      = if r ∈ rules then 1 else 0 := by
  have hone : ∀ r' ∈ Stylesheet.ordered options.byPrecedence rules,
      Rule.styledClass r'.body = ClassName.of b.names key ↔ r' = r := by
    refine fun r' hr' => ⟨fun hclass => ?_, ?_⟩
    · have hr' := h.eq_of_styledClass hf hrules hk (Stylesheet.mem_ordered.1 hr') hclass
      exact Except.ok.inj (hr'.symm.trans hr)
    · rintro rfl
      exact hf key hk _ hr
  rw [Stylesheet.written_eq, Stylesheet.ruleCount_eq (Stylesheet.nodup_ordered _ _) hone,
    if_congr Stylesheet.mem_ordered rfl rfl]

end Count

theorem exists_key_of_mem_core {r : Rule} (hr : r ∈ b.rules.core) :
    ∃ key ∈ b.compiled.tree.keys, Stylesheet.ruleOf (rulesOf s o) b.names key = .ok r := by
  obtain ⟨component, element, entry, key, he, hr, hk⟩ := (h.correct.core r).1 hr
  refine ⟨key, KeyTree.mem_keys_of_mem he ?_, hr⟩
  exact hk.elim (·.mem_keys) (·.1.mem_keys)

theorem exists_key_of_mem_effects {r : Rule} (hr : r ∈ b.rules.effects) :
    ∃ key ∈ b.compiled.tree.keys, Stylesheet.ruleOf (rulesOf s o) b.names key = .ok r := by
  obtain ⟨component, element, entry, key, he, hr, hk, -⟩ := (h.correct.effects r).1 hr
  exact ⟨key, KeyTree.mem_keys_of_mem he hk.mem_keys, hr⟩

theorem exists_key_of_mem_palette {palette : String} {r : Rule}
    (hr : r ∈ Dict.getD b.rules.palettes palette []) :
    ∃ key ∈ b.compiled.tree.keys, BundleRules.colorRule (rulesOf s o) b.names key = .ok r := by
  obtain ⟨component, element, entry, key, he, hr, hk⟩ := (h.correct.colors palette r).1 hr
  exact ⟨key, KeyTree.mem_keys_of_mem he hk.mem_keys, hr⟩

theorem notMem_effects_of_hasPlain {component element : String} {entry : Entry}
    (he : (component, element, entry) ∈ b.compiled.tree.entries) {key : String}
    (hk : entry.HasPlain key) {r : Rule}
    (hr : Stylesheet.ruleOf (rulesOf s o) b.names key = .ok r) : r ∉ b.rules.effects := by
  have hcorrect := h.correct
  rw [h.names] at hcorrect hr
  exact hcorrect.notMem_effects h.faithful he hk hr

section

variable {key : String} {r : Rule}
  (hr : Stylesheet.ruleOf (rulesOf s o) b.names key = .ok r)
include hr

theorem ruleCount_core (hk : key ∈ b.compiled.tree.keys) (combineMedia : Bool) :
    ruleCount (b.coreRules combineMedia) (ClassName.of b.names key)
      = if r ∈ b.rules.core then 1 else 0 :=
  h.ruleCount_written (fun _ hk _ => h.styledClass_ruleOf hk)
    (fun _ => h.exists_key_of_mem_core) hk _ hr

theorem ruleCount_effects (hk : key ∈ b.compiled.tree.keys) (combineMedia : Bool) :
    ruleCount (b.effectRules combineMedia) (ClassName.of b.names key)
      = if r ∈ b.rules.effects then 1 else 0 :=
  h.ruleCount_written (fun _ hk _ => h.styledClass_ruleOf hk)
    (fun _ => h.exists_key_of_mem_effects) hk _ hr

variable {component element : String} {entry : Entry}
  (he : (component, element, entry) ∈ b.compiled.tree.entries) (hk : entry.HasEffect key)
include he hk

theorem mem_effects_iff_isGated : r ∈ b.rules.effects ↔ Rule.isGated r.body = true := by
  rw [h.correct.effects]
  constructor
  · rintro ⟨-, -, -, -, -, -, -, hgated⟩
    exact hgated
  · exact fun hgated => ⟨component, element, entry, key, he, hr, hk, hgated⟩

theorem mem_core_iff_isGated : r ∈ b.rules.core ↔ Rule.isGated r.body = false := by
  constructor
  · intro hcore
    obtain ⟨component', element', entry', key', he', hr', hk'⟩ := (h.correct.core r).1 hcore
    rcases hk' with hk' | ⟨-, hgated⟩
    · -- The rule of a plain key is none of the effects, though it is the rule of this key.
      rw [← Bool.not_eq_true, ← h.mem_effects_iff_isGated hr he hk]
      exact h.notMem_effects_of_hasPlain he' hk' hr'
    · exact hgated
  · exact fun hgated => (h.correct.core r).2
      ⟨component, element, entry, key, he, hr, .inr ⟨hk, hgated⟩⟩

end

/-- A key of decorations or scales has its rule in the core bundle and none among the effects. -/
theorem ruleCount_plain {component element : String} {entry : Entry}
    (he : (component, element, entry) ∈ b.compiled.tree.entries) {key : String}
    (hk : entry.HasPlain key) (combineMedia : Bool) :
    ruleCount (b.coreRules combineMedia) (ClassName.of b.names key) = 1
      ∧ ruleCount (b.effectRules combineMedia) (ClassName.of b.names key) = 0 := by
  have hkeys := KeyTree.mem_keys_of_mem he hk.mem_keys
  obtain ⟨r, hr⟩ := h.correct.named component element entry key he (.inl hk)
  have hmem := (h.correct.core r).2 ⟨component, element, entry, key, he, hr, .inl hk⟩
  rw [h.ruleCount_core hr hkeys, h.ruleCount_effects hr hkeys, if_pos hmem,
    if_neg (h.notMem_effects_of_hasPlain he hk hr)]
  exact ⟨rfl, rfl⟩

/-- A key of effects has one rule, in the core bundle or among the effects. -/
theorem ruleCount_effect {component element : String} {entry : Entry}
    (he : (component, element, entry) ∈ b.compiled.tree.entries) {key : String}
    (hk : entry.HasEffect key) (combineMedia : Bool) :
    ruleCount (b.coreRules combineMedia) (ClassName.of b.names key)
      + ruleCount (b.effectRules combineMedia) (ClassName.of b.names key) = 1 := by
  have hkeys := KeyTree.mem_keys_of_mem he hk.mem_keys
  obtain ⟨r, hr⟩ := h.correct.named component element entry key he (.inr hk)
  rw [h.ruleCount_core hr hkeys, h.ruleCount_effects hr hkeys,
    if_congr (h.mem_core_iff_isGated hr he hk) rfl rfl,
    if_congr (h.mem_effects_iff_isGated hr he hk) rfl rfl]
  cases Rule.isGated r.body <;> rfl

theorem ruleCount_color {component element : String} {entry : Entry}
    (he : (component, element, entry) ∈ b.compiled.tree.entries) {palette key : String}
    (hk : entry.HasColor palette key) (combineMedia : Bool) :
    ruleCount (b.paletteRules combineMedia palette) (ClassName.of b.names key) = 1 := by
  have hkeys := KeyTree.mem_keys_of_mem he hk.mem_keys
  obtain ⟨r, hr⟩ := h.correct.namedColors component element entry palette key he hk
  have hmem := (h.correct.colors palette r).2 ⟨component, element, entry, key, he, hr, hk⟩
  rw [paletteRules, h.ruleCount_written (fun _ hk _ => h.styledClass_colorRule hk)
    (fun _ => h.exists_key_of_mem_palette) hkeys _ hr, if_pos hmem]

/-- The rule of a key of decorations, scales or effects has its class in a core record. -/
theorem exists_coreRecord {component element : String} {entry : Entry}
    (he : (component, element, entry) ∈ b.compiled.tree.entries) {key : String}
    (hk : entry.HasPlain key ∨ entry.HasEffect key) {r : Rule}
    (hr : Stylesheet.ruleOf (rulesOf s o) b.names key = .ok r) :
    ∃ component element record, b.coreRecord? component element = some record
      ∧ ∃ field ∈ ["d", "s", "e", "c"], Rule.styledClass r.body ∈ classesIn record field := by
  have hkeys := KeyTree.mem_keys_of_mem he (hk.elim (·.mem_keys) (·.mem_keys))
  refine ⟨component, element, _, h.coreRecord?_eq_some.2 ⟨entry, he, rfl⟩, ?_⟩
  rw [h.styledClass_ruleOf hkeys hr]
  rcases hk with hk | hk
  · rcases (h.mem_classesIn_plain he).2 ⟨key, hk, rfl⟩ with hc | hc
    · exact ⟨"d", by simp, hc⟩
    · exact ⟨"s", by simp, hc⟩
  · rcases (h.mem_classesIn_effects he).2 ⟨key, hk, rfl⟩ with hc | hc
    · exact ⟨"e", by simp, hc⟩
    · exact ⟨"c", by simp, hc⟩

theorem exists_paletteRecord {component element : String} {entry : Entry}
    (he : (component, element, entry) ∈ b.compiled.tree.entries) {palette key : String}
    (hk : entry.HasColor palette key) {r : Rule}
    (hr : BundleRules.colorRule (rulesOf s o) b.names key = .ok r) :
    ∃ component element record, b.paletteRecord? palette component element = some record
      ∧ ∃ field ∈ ["p", "c"], Rule.styledClass r.body ∈ classesIn record field := by
  have hkeys := KeyTree.mem_keys_of_mem he hk.mem_keys
  obtain ⟨roles, hp, hk⟩ := hk
  refine ⟨component, element, _, h.paletteRecord?_eq_some.2 ⟨entry, roles, he, hp, rfl⟩, ?_⟩
  rw [h.styledClass_colorRule hkeys hr]
  rcases (h.mem_classesIn_color he hp).2 ⟨key, hk, rfl⟩ with hc | hc
  · exact ⟨"p", by simp, hc⟩
  · exact ⟨"c", by simp, hc⟩

end MadeFrom

/-- A schema of one element with a style in every section. -/
def fullBox : Schema :=
  let black : Document := .list ([0, 0, 0, 1].map fun n => .scalar (.number n))
  let soft : Document := .map [(.text "soft", .map [(.text "rest", black), (.text "hover", black)])]
  let radius : Document := .map [(.text "s:md:1", .scalar (.number 4))]
  .ofElements [("box",
    { decorations := some ⟨none, some true, none, none, none, none⟩
      scales := some [(.padding, .number 8), (.borderRadius, .number 4)]
      palettes := some [("brand", [(.boxColor, [("primary", soft)])])]
      effects := some ⟨none, some [("rest", radius), ("hover", radius)]⟩ })]

end AtomicCss.Build

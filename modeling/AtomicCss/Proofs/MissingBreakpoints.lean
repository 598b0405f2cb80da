import AtomicCss.Proofs.BreakpointNames
import AtomicCss.Proofs.Build
import AtomicCss.Proofs.Filing
import AtomicCss.Proofs.SingleSheet

/-!
# Breakpoints without a width

The numbers of scales name breakpoints, and a build looks their widths up in the schema's table and
that of its options. A breakpoint without a width stops the build, and a schema of scales is built
if every breakpoint it names has one, as long as the names can be read off the keys they are written
into.
-/
namespace AtomicCss

namespace Build

variable {s : Schema} {c : Compiled} (hc : Compiled.ofSchema s = .ok c) {o : BuildOptions}
include hc

/-- A compiled schema is built just if each of its keys has a rule. -/
theorem exists_ofSchema_iff : (∃ b, ofSchema s o = .ok b) ↔ ∀ key ∈ c.tree.keys,
    ∃ r, Stylesheet.ruleOf (rulesOf s o) (Usage.classNames c.tree) key = .ok r := by
  have hrules : (∀ key ∈ c.tree.keys,
      ∃ r, Stylesheet.ruleOf (rulesOf s o) (Usage.classNames c.tree) key = .ok r)
        ↔ ∃ r, BundleRules.ofTree (rulesOf s o) (Usage.classNames c.tree) c.tree = .ok r := by
    rw [← (Compiled.ofSchema_faithful hc).exists_rules_iff]
    exact ⟨exists_mapM_ok, fun ⟨_, h⟩ key hk => (exists_of_mapM_ok h hk).imp fun _ h => h.2⟩
  rw [hrules]
  simp only [ofSchema, ofRules, hc, bind_eq_ok, mapError_eq_ok, pure_eq_ok, Except.ok.injEq,
    exists_eq_left']
  exact ⟨fun ⟨_, r, hr, _⟩ => ⟨r, hr⟩, fun ⟨r, hr⟩ => ⟨_, r, hr, rfl⟩⟩

/-- A build of a compiled schema fails at a key that has no rule. -/
theorem exists_of_ofSchema_error {e : BuildError} (h : ofSchema s o = .error e) :
    ∃ key ∈ c.tree.keys, ∃ e',
      Stylesheet.ruleOf (rulesOf s o) (Usage.classNames c.tree) key = .error e' ∧ e = .rule e' := by
  simp only [ofSchema, ofRules, hc, bind_eq_error, mapError_eq_error, mapError_eq_ok] at h
  obtain ⟨_, hcompile, -⟩ | ⟨_, hcompile, ⟨e', hrules, rfl⟩ | ⟨_, -, hpure⟩⟩ := h
  · cases hcompile
  · cases hcompile
    obtain ⟨key, hk, hkey⟩ := (Compiled.ofSchema_faithful hc).exists_of_ofTree_error hrules
    exact ⟨key, hk, e', hkey, rfl⟩
  · cases hpure

end Build

namespace Check

open Checked

theorem hasSizeTokens_of_element {d : Document} {e : Element} (h : element d = .valid e) :
    ∀ m ∈ e.scales.getD [], m.2.HasSizeTokens := by
  obtain ⟨members, hcheck, -⟩ := exists_of_closed h
  simp only [seq_eq_valid, functor_map_eq_valid] at hcheck
  obtain ⟨_, _, ⟨_, _, ⟨_, scales?, ⟨_, -, rfl⟩, hscales, rfl⟩, -, rfl⟩, -, rfl⟩ := hcheck
  cases scales? with
  | none => simp
  | some scales =>
    obtain ⟨_, d', -, hd'⟩ := exists_of_optional hscales
    exact hasSizeTokens_of_valid hd'

end Check

namespace Element

structure HasOnlyScales (e : Element) : Prop where
  decorations : e.decorations = none
  palettes : e.palettes = none
  effects : e.effects = none

/-- The entry of an element with scales only has the keys of its numbers. -/
theorem HasOnlyScales.exists_entryOf {e : Element} (he : e.HasOnlyScales)
    (hsizes : ∀ m ∈ e.scales.getD [], m.2.HasSizeTokens)
    (hwritable : ∀ a ∈ (e.scales.getD []).numbers, (Value.number a.number).IsWritable) :
    ∃ entry, Compiled.entryOf e = .ok (entry, none)
      ∧ ∀ key, key ∈ entry.keys ↔ ∃ a ∈ (e.scales.getD []).numbers, a.key = key := by
  obtain ⟨b, hb⟩ :
      ∃ b, (Compiled.filled (e.scales.map Scales.members)).mapM Keys.ofScales = .ok b := by
    cases hfilled : Compiled.filled (e.scales.map Scales.members) with
    | none => exact ⟨none, rfl⟩
    | some members =>
      obtain ⟨scales, hscales, rfl⟩ := Option.map_eq_some_iff.1 (Compiled.filled_eq_some hfilled)
      rw [hscales] at hsizes hwritable
      exact ⟨_, mapM_option_eq_ok.2
        (.inr ⟨_, _, rfl, rfl, Keys.ofScales_members hsizes hwritable⟩)⟩
  have hentry : Compiled.entryOf e = .ok ({ scales := b }, none) := by
    simp only [Compiled.entryOf, Compiled.entryBeforeEffects, Compiled.effectKeys, he.decorations,
      he.palettes, he.effects, hb]
    rfl
  refine ⟨_, hentry, fun key => ?_⟩
  obtain ⟨_, hparts, hperm⟩ := (Compiled.sectionsOf hentry).exists_scaleKeys
  cases hparts.symm.trans (Keys.mapM_responsive hsizes hwritable)
  rw [← List.flatMap_def, ← List.map_flatMap, ← Scales.numbers] at hperm
  have hnone : Entry.bucketKeys none = [] := rfl
  simp [Entry.mem_keys, Entry.paletteKeys, hnone, hperm.mem_iff]

end Element

namespace Schema

def scaleNumbers (s : Schema) : List ScaleNumber :=
  s.places.flatMap fun (_, _, e) => (e.scales.getD []).numbers

/-- The elements have scales only, and these have finite numbers. -/
structure HasOnlyScales (s : Schema) : Prop where
  elements : ∀ m ∈ s.places, m.2.2.HasOnlyScales
  finite : ∀ a ∈ s.scaleNumbers, ∃ x, a.number.toFloat = .ok x ∧ x.isFinite = true

/-- Some number of a scale is given for a size from a breakpoint on that has the name. -/
def NamesBreakpoint (s : Schema) (b : String) : Prop :=
  ∃ a ∈ s.scaleNumbers, a.NamesBreakpoint b

def breakpointNames (s : Schema) : List String := s.scaleNumbers.filterMap (·.keyBreakpoint)

variable {d : Document} {s : Schema}

theorem mem_breakpointNames {b : String} : b ∈ s.breakpointNames ↔ s.NamesBreakpoint b := by
  simp only [breakpointNames, List.mem_filterMap, ScaleNumber.keyBreakpoint_eq_some]
  rfl

theorem isFinite_of_mem (hd : Check.schema d = .valid s) (hs : s.HasOnlyScales) {a : ScaleNumber}
    (ha : a ∈ s.scaleNumbers) : a.IsFinite := by
  refine ⟨fun size hsize => ?_, hs.finite a ha⟩
  obtain ⟨⟨_, _, e⟩, he, ha⟩ := List.mem_flatMap.1 ha
  obtain ⟨m, hm, ha⟩ := List.mem_flatMap.1 ha
  obtain ⟨_, helement⟩ := Check.exists_element hd he
  exact Scale.isSizeToken_of_mem_numbers (Check.hasSizeTokens_of_element helement m hm) ha hsize

theorem exists_entryOf (hd : Check.schema d = .valid s) (hs : s.HasOnlyScales)
    {component element : String} {e : Element} (he : (component, element, e) ∈ s.places) :
    ∃ entry, Compiled.entryOf e = .ok (entry, none)
      ∧ ∀ key, key ∈ entry.keys ↔ ∃ a ∈ (e.scales.getD []).numbers, a.key = key := by
  obtain ⟨_, helement⟩ := Check.exists_element hd he
  refine (hs.elements _ he).exists_entryOf (Check.hasSizeTokens_of_element helement) fun a ha => ?_
  obtain ⟨_, hx, -⟩ := hs.finite a (List.mem_flatMap.2 ⟨_, he, ha⟩)
  exact Number.isWritable_of_toFloat hx

theorem exists_compiled (hd : Check.schema d = .valid s) (hs : s.HasOnlyScales) :
    ∃ c, Compiled.ofSchema s = .ok c := by
  rw [Compiled.ofSchema_eq]
  refine exists_foldlM_ok fun m hm c => ?_
  obtain ⟨entry, hentry, -⟩ := s.exists_entryOf hd hs hm
  exact ⟨_, Compiled.add_eq_ok.2 ⟨entry, none, hentry, rfl⟩⟩

theorem mem_keys_iff (hd : Check.schema d = .valid s) (hs : s.HasOnlyScales) {c : Compiled}
    (hc : Compiled.ofSchema s = .ok c) {key : String} :
    key ∈ c.tree.keys ↔ ∃ a ∈ s.scaleNumbers, a.key = key := by
  have hfaithful := Compiled.ofSchema_faithful hc
  rw [KeyTree.mem_keys]
  constructor
  · rintro ⟨component, element, entry, hm, hk⟩
    obtain ⟨e, section?, he, hentry, -⟩ :=
      hfaithful.sound component element entry ((KeyTree.mem_entries_iff hfaithful.tree).1 hm)
    obtain ⟨_, hentry', hkeys⟩ := s.exists_entryOf hd hs he
    cases hentry.symm.trans hentry'
    obtain ⟨a, ha, hkey⟩ := (hkeys key).1 hk
    exact ⟨a, List.mem_flatMap.2 ⟨_, he, ha⟩, hkey⟩
  · rintro ⟨a, ha, hkey⟩
    obtain ⟨⟨component, element, e⟩, he, ha⟩ := List.mem_flatMap.1 ha
    obtain ⟨entry, section?, hat, hentry⟩ :=
      hfaithful.exists_entry (Check.distinctPlaces hd) he
    obtain ⟨_, hentry', hkeys⟩ := s.exists_entryOf hd hs he
    cases hentry.symm.trans hentry'
    exact ⟨component, element, entry, (KeyTree.mem_entries_iff hfaithful.tree).2 hat,
      (hkeys key).2 ⟨a, ha, hkey⟩⟩

end Schema

/-- A media query is missing for the breakpoints that have no width, or one too long to be
written. -/
theorem Rule.mediaQuery_eq_error {t : BreakpointTable} {breakpoint : Option String}
    {e : RuleError} : mediaQuery t.queries breakpoint = .error e
      ↔ ∃ b, breakpoint = some b ∧ b ≠ "" ∧ (t.get? b = none ∧ e = .breakpoint b
        ∨ ∃ width, t.get? b = some width ∧ ¬Numeral.IsShort width
          ∧ e = .number .notANumber) := by
  cases breakpoint with
  | none => simp [mediaQuery, Location.known]
  | some b =>
    by_cases hempty : b = ""
    · subst hempty
      have hknown : Location.known (some "") = none := by decide
      simp [mediaQuery, hknown]
    · have hknown : Location.known (some b) = some b := by simp [Location.known, hempty]
      simp only [mediaQuery, hknown, BreakpointTable.get?_queries]
      cases hwidth : Dict.get? t b with
      | none => simp [hempty, hwidth, eq_comm]
      | some width => by_cases hshort : Numeral.IsShort width <;>
          simp [hempty, hwidth, hshort, Number.intText?, eq_comm]

/-- The breakpoints that the schema names have no width that is too long to be written. -/
def Build.HasShortWidths (s : Schema) (o : BuildOptions) : Prop :=
  ∀ b width, s.NamesBreakpoint b → (breakpointsOf s o).get? b = some width → Numeral.IsShort width

/-- The widths decide over a build: a breakpoint that has none stops it with a report of such a
breakpoint, and if every breakpoint has one the schema is built. -/
structure Build.BreakpointsDecide (s : Schema) (o : BuildOptions) : Prop where
  missing : (∃ b, s.NamesBreakpoint b ∧ (breakpointsOf s o).get? b = none) →
    ∃ b, s.NamesBreakpoint b ∧ (breakpointsOf s o).get? b = none
      ∧ ofSchema s o = .error (.rule (.breakpoint b))
  present : (∀ b, s.NamesBreakpoint b → ((breakpointsOf s o).get? b).isSome = true) →
    ∃ build, ofSchema s o = .ok build

namespace Build

variable {d : Document} {s : Schema} {o : BuildOptions} {b : String}

theorem get?_breakpointsOf_eq_none : (breakpointsOf s o).get? b = none
    ↔ b ∉ Dict.keys o.breakpoints ∧ s.breakpoints.get? b = none := by
  have hreverse : Dict.get? o.breakpoints.reverse b = none ↔ b ∉ Dict.keys o.breakpoints := by
    rw [← Option.not_isSome_iff_eq_none, ← Dict.mem_keys_iff]
    simp [Dict.keys]
  rw [breakpointsOf, Dict.get?_merge, Option.or_eq_none_iff, hreverse]

/-- Options that give a width to each of some names, and to no other. -/
def widthsFor (names : List String) : BuildOptions where
  breakpoints := names.map fun b => (b, 0)

theorem get?_widthsFor_of_mem {names : List String} (hb : b ∈ names) :
    (breakpointsOf s (widthsFor names)).get? b = some 0 := by
  have hwidth : ∀ width, Dict.get? (names.map fun b => (b, (0 : Int))).reverse b = some width →
      width = 0 := by
    intro width hwidth
    obtain ⟨_, -, heq⟩ := List.mem_map.1 (List.mem_reverse.1 (Dict.mem_of_get? hwidth))
    exact (Prod.mk.inj heq).2.symm
  rw [breakpointsOf, Dict.get?_merge, widthsFor]
  cases hget : Dict.get? (names.map fun b => (b, (0 : Int))).reverse b with
  | some width => rw [hwidth width hget, Option.some_or]
  | none =>
    have hnot := mt Dict.mem_keys_iff.1 (Option.not_isSome_iff_eq_none.2 hget)
    simp [Dict.keys, hb] at hnot

theorem get?_widthsFor_eq_none {names : List String} :
    (breakpointsOf s (widthsFor names)).get? b = none
      ↔ b ∉ names ∧ s.breakpoints.get? b = none := by
  rw [get?_breakpointsOf_eq_none]
  simp [widthsFor, Dict.keys]

section OnlyScales

variable (hd : Check.schema d = .valid s) (hs : s.HasOnlyScales)
include hd hs

/-- In a schema that is built the names of breakpoints are told apart from what follows. -/
theorem isBreakpoint_of_ofSchema {build : Build} (h : ofSchema s o = .ok build)
    (hb : s.NamesBreakpoint b) (hne : b ≠ "") : StyleKey.IsBreakpoint b := by
  obtain ⟨a, ha, hnames⟩ := hb
  obtain ⟨c, hc⟩ := s.exists_compiled hd hs
  obtain ⟨_, hrule⟩ := (exists_ofSchema_iff hc).1 ⟨build, h⟩ a.key
    ((s.mem_keys_iff hd hs hc).2 ⟨a, ha, rfl⟩)
  exact ScaleNumber.isBreakpoint_of_ofKey (s.isFinite_of_mem hd hs ha) hnames hne hrule

variable (hread : ∀ b, s.NamesBreakpoint b → b = "" ∨ StyleKey.IsBreakpoint b)
include hread

/-- If the names can be read, a number has a rule just if its breakpoint has a media query. -/
theorem exists_ruleOf_eq {a : ScaleNumber} (ha : a ∈ s.scaleNumbers) (names : Dict String) :
    ∃ body, Stylesheet.ruleOf (rulesOf s o) names a.key
      = (Rule.mediaQuery (breakpointsOf s o).queries a.keyBreakpoint).map
        fun media => ⟨body, media⟩ :=
  ScaleNumber.exists_ofKey_eq (s.isFinite_of_mem hd hs ha) (fun b hb => hread b ⟨a, ha, hb⟩) _ _

/-- If the names can be read and the widths written, a build fails for want of a width only. -/
theorem exists_missing_of_ofSchema_error (hshort : HasShortWidths s o) {e : BuildError}
    (h : ofSchema s o = .error e) :
    ∃ b, s.NamesBreakpoint b ∧ b ≠ "" ∧ (breakpointsOf s o).get? b = none
      ∧ e = .rule (.breakpoint b) := by
  obtain ⟨c, hc⟩ := s.exists_compiled hd hs
  obtain ⟨_, hk, e', hrule, rfl⟩ := exists_of_ofSchema_error hc h
  obtain ⟨a, ha, rfl⟩ := (s.mem_keys_iff hd hs hc).1 hk
  obtain ⟨_, heq⟩ := exists_ruleOf_eq hd hs (o := o) hread ha (Usage.classNames c.tree)
  cases hmedia : Rule.mediaQuery (breakpointsOf s o).queries a.keyBreakpoint with
  | ok media =>
    rw [heq, hmedia] at hrule
    cases hrule
  | error e =>
    rw [heq, hmedia] at hrule
    cases hrule
    obtain ⟨b, hb, hne, ⟨hnone, rfl⟩ | ⟨width, hwidth, hlong, -⟩⟩ :=
      Rule.mediaQuery_eq_error.1 hmedia
    · exact ⟨b, ⟨a, ha, ScaleNumber.keyBreakpoint_eq_some.1 hb⟩, hne, hnone, rfl⟩
    · exact absurd (hshort b width ⟨a, ha, ScaleNumber.keyBreakpoint_eq_some.1 hb⟩ hwidth) hlong

/-- If the names can be read, a breakpoint without a width stops the build. -/
theorem exists_error_of_missing (hb : s.NamesBreakpoint b) (hne : b ≠ "")
    (hnone : (breakpointsOf s o).get? b = none) : ∃ e, ofSchema s o = .error e := by
  rw [exists_error_iff]
  intro hbuild
  obtain ⟨a, ha, hnames⟩ := hb
  obtain ⟨c, hc⟩ := s.exists_compiled hd hs
  obtain ⟨_, hrule⟩ := (exists_ofSchema_iff hc).1 hbuild a.key
    ((s.mem_keys_iff hd hs hc).2 ⟨a, ha, rfl⟩)
  obtain ⟨_, heq⟩ := exists_ruleOf_eq hd hs (o := o) hread ha (Usage.classNames c.tree)
  have hmedia : Rule.mediaQuery (breakpointsOf s o).queries a.keyBreakpoint
      = .error (.breakpoint b) :=
    Rule.mediaQuery_eq_error.2
      ⟨b, ScaleNumber.keyBreakpoint_eq_some.2 hnames, hne, .inl ⟨hnone, rfl⟩⟩
  rw [heq, hmedia] at hrule
  cases hrule

omit hread in
/-- If it is enough that all names have a width, they can be read. -/
theorem isBreakpoint_of_breakpointsDecide (h : ∀ o, HasShortWidths s o → BreakpointsDecide s o)
    (hb : s.NamesBreakpoint b) : b = "" ∨ StyleKey.IsBreakpoint b := by
  have hshort : HasShortWidths s (widthsFor s.breakpointNames) := by
    intro b width hb hwidth
    rw [get?_widthsFor_of_mem (Schema.mem_breakpointNames.2 hb)] at hwidth
    cases hwidth
    decide
  obtain ⟨_, hbuild⟩ := (h _ hshort).present fun b hb => by
    rw [← Option.ne_none_iff_isSome, ne_eq, get?_widthsFor_eq_none]
    exact fun hnone => hnone.1 (Schema.mem_breakpointNames.2 hb)
  exact or_iff_not_imp_left.2 (isBreakpoint_of_ofSchema hd hs hbuild hb)

/-- If an empty name without a width stops the build when the other names have one, it has a width
in the schema: without one it is passed over. -/
theorem isSome_of_breakpointsDecide
    (h : ∀ o, HasShortWidths s o → BreakpointsDecide s o)
    (hb : s.NamesBreakpoint "") : (s.breakpoints.get? "").isSome = true := by
  by_contra hnone
  rw [Option.not_isSome_iff_eq_none] at hnone
  have hshort : HasShortWidths s (widthsFor (s.breakpointNames.filter (· ≠ ""))) := by
    intro b width hb hwidth
    by_cases hempty : b = ""
    · rw [hempty, get?_widthsFor_eq_none.2 ⟨by simp, hnone⟩] at hwidth
      cases hwidth
    · rw [get?_widthsFor_of_mem (List.mem_filter.2
        ⟨Schema.mem_breakpointNames.2 hb, by simpa using hempty⟩)] at hwidth
      cases hwidth
      decide
  obtain ⟨_, -, -, herror⟩ :=
    (h _ hshort).missing ⟨"", hb, get?_widthsFor_eq_none.2 ⟨by simp, hnone⟩⟩
  obtain ⟨b, hb, hne, hmissing, -⟩ := exists_missing_of_ofSchema_error hd hs hread hshort herror
  exact (get?_widthsFor_eq_none.1 hmissing).1
    (List.mem_filter.2 ⟨Schema.mem_breakpointNames.2 hb, by simpa using hne⟩)

/-- If the names can be read and an empty one has a width in the schema, the widths decide. -/
theorem breakpointsDecide_of_readable
    (hempty : s.NamesBreakpoint "" → (s.breakpoints.get? "").isSome = true)
    (hshort : HasShortWidths s o) : BreakpointsDecide s o := by
  constructor
  case missing =>
    rintro ⟨b, hb, hnone⟩
    have hne : b ≠ "" := by
      rintro rfl
      have hsome := hempty hb
      rw [(get?_breakpointsOf_eq_none.1 hnone).2] at hsome
      cases hsome
    obtain ⟨e, he⟩ := exists_error_of_missing hd hs hread hb hne hnone
    obtain ⟨b, hb, -, hnone, rfl⟩ := exists_missing_of_ofSchema_error hd hs hread hshort he
    exact ⟨b, hb, hnone, he⟩
  case present =>
    intro hall
    by_contra hno
    obtain ⟨e, he⟩ := exists_error_iff.2 hno
    obtain ⟨b, hb, -, hnone, -⟩ := exists_missing_of_ofSchema_error hd hs hread hshort he
    simpa [hnone] using hall b hb

end OnlyScales

/-- Under all options with widths that can be written, the widths decide over the build of a schema
exactly if each breakpoint that it names is told apart from the value after it, or is an empty name
to which the schema gives a width. -/
theorem breakpointsDecide_iff (hd : Check.schema d = .valid s) (hs : s.HasOnlyScales) :
    (∀ o, HasShortWidths s o → BreakpointsDecide s o) ↔ ∀ b, s.NamesBreakpoint b →
      StyleKey.IsBreakpoint b ∨ b = "" ∧ (s.breakpoints.get? b).isSome = true := by
  constructor
  · intro h b hb
    have hread : ∀ b, s.NamesBreakpoint b → b = "" ∨ StyleKey.IsBreakpoint b :=
      fun _ => isBreakpoint_of_breakpointsDecide hd hs h
    refine (hread b hb).symm.imp_right fun hempty => ⟨hempty, ?_⟩
    subst hempty
    exact isSome_of_breakpointsDecide hd hs hread h hb
  · intro h o
    refine breakpointsDecide_of_readable hd hs (fun b hb => (h b hb).symm.imp_left And.left) ?_
    exact fun hb => ((h "" hb).resolve_left fun hname => hname.1 rfl).2

/-- An element with a padding of 8 from each of some breakpoints on. -/
def paddedElement (names : List String) : Element where
  decorations := none
  scales := some [(.padding, .sizes [("s:md:1", .widths (names.map fun b => (b, 8)))])]
  palettes := none
  effects := none

def padded (t : BreakpointTable) (names : List String) : Schema :=
  { name := "padded", version := none, author := none, breakpoints := t
    components := [("card", ⟨[("box", paddedElement names)]⟩)] }

/-- The schema of a padded element as it is authored. -/
def paddedDocument (t : BreakpointTable) (names : List String) : Document :=
  let member (name : String) (d : Document) : Document := .map [(.text name, d)]
  let widths : Document := .map (names.map fun b => (.text b, .scalar (.number 8)))
  .map [(.text "name", .scalar (.text "padded")),
    (.text "breakpoints", .map (t.map fun (b, width) => (.text b, .scalar (.number (.int width))))),
    (.text "components", member "card" (member "elements" (member "box" (member "scales"
      (member "padding" (member "s:md:1" widths))))))]

theorem scaleNumbers_padded (t : BreakpointTable) (names : List String) :
    (padded t names).scaleNumbers = names.map fun b =>
      { property := .padding, size := some "s:md:1", breakpoint := some b, number := 8 } := by
  simp [Schema.scaleNumbers, Schema.places, padded, paddedElement, Scales.numbers, Scale.numbers,
    SizeScale.numbers]

theorem hasOnlyScales_padded (t : BreakpointTable) (names : List String) :
    (padded t names).HasOnlyScales where
  elements m hm := by
    rw [Schema.places, padded, List.flatMap_singleton] at hm
    rw [List.mem_singleton.1 hm]
    exact ⟨rfl, rfl, rfl⟩
  finite a ha := by
    rw [scaleNumbers_padded] at ha
    obtain ⟨_, -, rfl⟩ := List.mem_map.1 ha
    have hfinite : ((8 : Number).toFloat.toOption.map Float.isFinite) = some true := by
      decide +kernel
    exact exists_of_toOption_map hfinite

theorem namesBreakpoint_padded {t : BreakpointTable} {names : List String} {b : String} :
    (padded t names).NamesBreakpoint b ↔ b ∈ names ∧ b ≠ allBreakpoints := by
  have hsize : "s:md:1" ≠ allSizes := by decide
  simp [Schema.NamesBreakpoint, ScaleNumber.NamesBreakpoint, scaleNumbers_padded, hsize]

/-- A padding from a readable breakpoint on and from an empty one that has a width. The widths that
the schema gives are short. -/
theorem breakpointsDecide_padded :
    Check.schema (paddedDocument [("", 320), ("bp:md:1", 768)] ["bp:md:1", ""])
        = .valid (padded [("", 320), ("bp:md:1", 768)] ["bp:md:1", ""])
      ∧ (padded [("", 320), ("bp:md:1", 768)] ["bp:md:1", ""]).HasOnlyScales
      ∧ HasShortWidths (padded [("", 320), ("bp:md:1", 768)] ["bp:md:1", ""]) {}
      ∧ ∀ o, HasShortWidths (padded [("", 320), ("bp:md:1", 768)] ["bp:md:1", ""]) o →
        BreakpointsDecide (padded [("", 320), ("bp:md:1", 768)] ["bp:md:1", ""]) o := by
  have hchecked : Check.schema (paddedDocument [("", 320), ("bp:md:1", 768)] ["bp:md:1", ""])
      = .valid (padded [("", 320), ("bp:md:1", 768)] ["bp:md:1", ""]) := rfl
  have hshort : HasShortWidths (padded [("", 320), ("bp:md:1", 768)] ["bp:md:1", ""]) {} := by
    have hwidths : ∀ b ∈ ["bp:md:1", ""], ∀ width ∈ (breakpointsOf
        (padded [("", 320), ("bp:md:1", 768)] ["bp:md:1", ""]) {}).get? b,
          Numeral.IsShort width := by decide +kernel
    exact fun b width hb hwidth => hwidths b (namesBreakpoint_padded.1 hb).1 width hwidth
  refine ⟨hchecked, hasOnlyScales_padded _ _, hshort,
    (breakpointsDecide_iff hchecked (hasOnlyScales_padded _ _)).2 fun b hb => ?_⟩
  have hnames := (namesBreakpoint_padded.1 hb).1
  simp only [List.mem_cons, List.not_mem_nil, or_false] at hnames
  rcases hnames with rfl | rfl
  · exact .inl (by decide)
  · exact .inr ⟨rfl, by decide⟩

/-- An empty breakpoint has no width, but does not stop the build. -/
theorem not_breakpointsDecide_nameless :
    Check.schema (paddedDocument standardBreakpoints [""])
        = .valid (padded standardBreakpoints [""])
      ∧ (padded standardBreakpoints [""]).HasOnlyScales
      ∧ ¬BreakpointsDecide (padded standardBreakpoints [""]) {} := by
  refine ⟨rfl, hasOnlyScales_padded _ _, fun h => ?_⟩
  have hbuilt : ((ofSchema (padded standardBreakpoints [""]) {}).toOption.map fun b =>
      b.sheets.core) = some ".a \x7b padding: 8px \x7d" := by decide +kernel
  have hnames : (padded standardBreakpoints [""]).NamesBreakpoint "" :=
    namesBreakpoint_padded.2 ⟨by simp, by decide⟩
  have hnone : (breakpointsOf (padded standardBreakpoints [""]) {}).get? "" = none := by
    decide +kernel
  obtain ⟨b, -, -, herror⟩ := h.missing ⟨"", hnames, hnone⟩
  rw [herror] at hbuilt
  cases hbuilt

end Build
end AtomicCss

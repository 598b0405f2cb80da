import AtomicCss.Proofs.ReorderedTree
import AtomicCss.Proofs.SheetTexts

/-!
# Builds do not depend on the order of members

Schemas that agree up to the order of members have the same usage, class names and sheets. A map of
a border radius with two keys of one text is an exception: of such members only the last is written,
so their order counts.
-/
namespace AtomicCss

/-- Options that give every breakpoint the same media query. -/
structure RuleOptions.Same (o o' : RuleOptions) : Prop where
  force : o.force = o'.force
  queries : ∀ token, o.queries.get? token = o'.queries.get? token

namespace Rule

theorem mediaQuery_congr {queries queries' : MediaQueries}
    (h : ∀ token, queries.get? token = queries'.get? token) :
    mediaQuery queries = mediaQuery queries' := by
  funext breakpoint
  simp only [mediaQuery, h]

theorem ofKey_congr {o o' : RuleOptions} (h : o.Same o') : ofKey o = ofKey o' := by
  have hradius : ofRadius o = ofRadius o' := by
    funext key className
    simp only [ofRadius, mediaQuery_congr h.queries, h.force]
  have hscale : ofScale o.queries = ofScale o'.queries := by
    funext key className
    simp only [ofScale, mediaQuery_congr h.queries]
  have hfamily : ∀ f ∈ families, f.2 o = f.2 o' := by
    intro f hf
    simp only [families, List.mem_cons, List.not_mem_nil, or_false] at hf
    rcases hf with rfl | rfl | rfl | rfl | rfl | rfl | rfl | rfl | rfl | rfl
    all_goals simp only [h.force, hradius, hscale]
  funext key className
  rw [ofKey, ofKey]
  split
  · next f hf => exact congrFun (congrFun (hfamily _ (List.mem_of_find?_eq_some hf)) key) className
  · rfl

end Rule

namespace Build

/-- Schemas with the same breakpoints in another order give their rules the same options. -/
theorem rulesOf_same {s t : Schema} (h : Reordered (fun _ => Eq) s.breakpoints t.breakpoints)
    (o : BuildOptions) : (rulesOf s o).Same (rulesOf t o) := by
  refine ⟨rfl, fun token => ?_⟩
  have hbreakpoints : s.breakpoints.get? token = t.breakpoints.get? token :=
    eq_of_rel (h.get? token)
  rw [rulesOf, rulesOf, BreakpointTable.get?_queries, BreakpointTable.get?_queries, breakpointsOf,
    breakpointsOf, Dict.get?_merge, Dict.get?_merge, hbreakpoints]

/-- The outputs of two builds for which the order of the schema must not count: the usage with its
order, the class names, and the texts of all sheets. -/
structure SameOutput (b c : Build) : Prop where
  usage : b.usage = c.usage
  names : b.names = c.names
  core : b.sheets.core = c.sheets.core
  effects : b.sheets.effects = c.sheets.effects
  palettes : ∀ palette, b.sheets.palettes.get? palette = c.sheets.palettes.get? palette

section Trees

variable {t u : KeyTree} (h : Matched (fun m n => m.2.2.SameKeys n.2.2) t.entries u.entries)
include h

/-- What some key of some entry has is the same in both trees. -/
theorem exists_key_iff {P Q : Entry → String → Prop}
    (hPQ : ∀ e f, e.SameKeys f → ∀ key, P e key ↔ Q f key) :
    (∃ component element e key, (component, element, e) ∈ t.entries ∧ P e key)
      ↔ ∃ component element e key, (component, element, e) ∈ u.entries ∧ Q e key := by
  have hentries := h.exists_iff (P := fun m => ∃ key, P m.2.2 key)
    (Q := fun n => ∃ key, Q n.2.2 key) fun m n hmn => exists_congr (hPQ m.2.2 n.2.2 hmn)
  simpa only [Prod.exists, exists_and_left] using hentries

theorem mem_paletteNames_iff (palette : String) :
    palette ∈ t.paletteNames ↔ palette ∈ u.paletteNames := by
  rw [KeyTree.paletteNames, KeyTree.paletteNames, List.mem_flatMap, List.mem_flatMap]
  exact h.exists_iff fun _ _ hmn => hmn.palettes palette

end Trees

namespace MadeFrom

variable {s t : Schema} {o : BuildOptions} {b c : Build}

/-- The keys of colors have rules, so they end with bracketed lists. -/
theorem colorsBracketed (h : b.MadeFrom s o) : b.compiled.tree.ColorsBracketed := by
  intro component element entry he palette key hk
  obtain ⟨rule, hrule⟩ := h.correct.namedColors component element entry palette key he hk
  rw [BundleRules.colorRule, Rule.ofColor] at hrule
  obtain ⟨inside, hinside, -⟩ := bind_eq_ok.1 hrule
  rw [given_eq_ok.1 hinside]
  rfl

theorem legible_core (h : b.MadeFrom s o) : ∀ r ∈ b.rules.core, r.Legible := by
  intro r hr
  obtain ⟨_, _, _, key, -, hrule, -⟩ := (h.correct.core r).1 hr
  exact Rule.legible_ofKey rfl hrule

theorem legible_effects (h : b.MadeFrom s o) : ∀ r ∈ b.rules.effects, r.Legible := by
  intro r hr
  obtain ⟨_, _, _, key, -, hrule, -⟩ := (h.correct.effects r).1 hr
  exact Rule.legible_ofKey rfl hrule

theorem legible_palette (h : b.MadeFrom s o) (palette : String) :
    ∀ r ∈ Dict.getD b.rules.palettes palette [], r.Legible := by
  intro r hr
  obtain ⟨_, _, _, key, -, hrule, -⟩ := (h.correct.colors palette r).1 hr
  exact Rule.legible_ofColor hrule

theorem get?_palettes (h : b.MadeFrom s o) (palette : String) :
    b.sheets.palettes.get? palette = if palette ∈ b.compiled.tree.paletteNames then
      some (Stylesheet.text ⟨true, o.combineMedia⟩ (Dict.getD b.rules.palettes palette []))
      else none := by
  have hkeys := h.correct.palettes palette
  rw [Dict.mem_keys_iff] at hkeys
  rw [h.sheets, Bundles.ofRules, Dict.get?_mapValues, Dict.getD]
  cases hrules : Dict.get? b.rules.palettes palette with
  | none =>
    rw [hrules] at hkeys
    rw [if_neg (hkeys.not.1 (by decide))]
    rfl
  | some rules =>
    rw [hrules] at hkeys
    rw [if_pos (hkeys.1 rfl)]
    rfl

/-- Builds of trees with the same keys, with rules of the same options, have the same output. -/
theorem sameOutput (hb : b.MadeFrom s o) (hc : c.MadeFrom t o)
    (ho : (rulesOf s o).Same (rulesOf t o))
    (h : Matched (fun m n => m.2.2.SameKeys n.2.2) b.compiled.tree.entries
      c.compiled.tree.entries) : b.SameOutput c := by
  -- Keys are ranked by how often they are used, so the order of the entries names no class.
  have husage : b.usage = c.usage := by
    rw [hb.usage, hc.usage]
    exact Usage.ofKeys_eq_of_perm (KeyTree.keys_perm h)
  have hnames : b.names = c.names := by
    rw [hb.names, hc.names, Usage.classNames, Usage.classNames, ← hb.usage, ← hc.usage, husage]
  have hruleOf : Stylesheet.ruleOf (rulesOf s o) b.names
      = Stylesheet.ruleOf (rulesOf t o) c.names := by
    funext key
    rw [Stylesheet.ruleOf, Stylesheet.ruleOf, hnames, Rule.ofKey_congr ho]
  have hcolorRule : BundleRules.colorRule (rulesOf s o) b.names
      = BundleRules.colorRule (rulesOf t o) c.names := by
    funext key
    rw [BundleRules.colorRule, BundleRules.colorRule, hnames, ho.force]
  refine ⟨husage, hnames, ?core, ?effects, ?palettes⟩
  case core =>
    rw [hb.sheets, hc.sheets]
    refine Stylesheet.text_eq (fun r => ?_) hb.legible_core
    rw [hb.correct.core, hc.correct.core, hruleOf]
    apply exists_key_iff h
    intro e f hef key
    rw [hef.hasPlain, hef.hasEffect]
  case effects =>
    rw [hb.sheets, hc.sheets]
    refine Stylesheet.text_eq (fun r => ?_) hb.legible_effects
    rw [hb.correct.effects, hc.correct.effects, hruleOf]
    apply exists_key_iff h
    intro e f hef key
    rw [hef.hasEffect]
  case palettes =>
    intro palette
    have htext : Stylesheet.text ⟨true, o.combineMedia⟩ (Dict.getD b.rules.palettes palette [])
        = Stylesheet.text ⟨true, o.combineMedia⟩ (Dict.getD c.rules.palettes palette []) := by
      refine Stylesheet.text_eq (fun r => ?_) (hb.legible_palette palette)
      rw [hb.correct.colors, hc.correct.colors, hcolorRule]
      apply exists_key_iff h
      intro e f hef key
      rw [hef.hasColor]
    rw [hb.get?_palettes, hc.get?_palettes, htext]
    simp only [mem_paletteNames_iff h]

end MadeFrom

variable {s t : Schema} {o : BuildOptions} {b c : Build}

/-- Builds of schemas that differ in the order of members only have the same output. -/
theorem sameOutput_of_reorderedTo (h : s.ReorderedTo t) (hkeys : s.DistinctRadiusKeys)
    (hb : ofSchema s o = .ok b) (hc : ofSchema t o = .ok c) : b.SameOutput c := by
  replace hb := madeFrom hb
  replace hc := madeFrom hc
  refine hb.sameOutput hc (rulesOf_same h.breakpoints o) ?_
  exact h.entries_matched hkeys hb.faithful hc.faithful hb.colorsBracketed

/-- Two members in one order or the other. -/
def inTurn {α : Type} (turned : Bool) (m n : α) : List α := if turned then [n, m] else [m, n]

theorem reordered_inTurn {κ α β : Type} {R : κ → α → β → Prop} {k l : κ} (hkl : k ≠ l) {a b : α}
    {a' b' : β} (hk : R k a a') (hl : R l b b') :
    Reordered R (inTurn false (k, a) (l, b)) (inTurn true (k, a') (l, b')) where
  nodup := by simpa [inTurn] using hkl
  matched := ⟨[(l, b), (k, a)], .swap _ _ _, .cons ⟨rfl, hl⟩ (.cons ⟨rfl, hk⟩ .nil)⟩

theorem reordered_single {κ α β : Type} {R : κ → α → β → Prop} {k : κ} {a : α} {b : β}
    (h : R k a b) : Reordered R [(k, a)] [(k, b)] where
  nodup := List.nodup_singleton k
  matched := .of_forall₂ (.cons ⟨rfl, h⟩ .nil)

theorem reordered_refl {κ α : Type} {d : List (κ × α)} (h : (d.map (·.1)).Nodup) :
    Reordered (fun _ => Eq) d d where
  nodup := h
  matched := .of_forall₂ (List.forall₂_same.2 fun _ _ => ⟨rfl, rfl⟩)

def boxOf (e : Element) : Schema := .ofElements [("box", e)]

theorem boxOf_reorderedTo {e f : Element} (h : e.ReorderedTo f) :
    (boxOf e).ReorderedTo (boxOf f) where
  name := rfl
  version := rfl
  author := rfl
  breakpoints := reordered_refl (d := standardBreakpoints) (by decide)
  components := reordered_single (reordered_single h)

def pixels (n : Number) : Document := .scalar (.number n)

/-- A border radius of two widths whose names are written alike. -/
def alikeRadius (turned : Bool) : Element where
  decorations := none
  scales := none
  palettes := none
  effects := some ⟨none, some [("rest", .map [(.text "s:all",
    .map (inTurn turned (.number 1, pixels 4) (.text "1", pixels 6)))])]⟩

theorem alikeRadius_reorderedTo : (alikeRadius false).ReorderedTo (alikeRadius true) where
  decorations := rfl
  scales := .none
  palettes := .none
  effects := .some ⟨.none, .some (reordered_single (.inr ⟨_, _, rfl, rfl,
    reordered_single (.inr ⟨_, _, rfl, rfl, reordered_inTurn (by simp) rfl rfl⟩)⟩))⟩

/-- Where widths are written alike, their order decides which is kept. -/
theorem not_sameOutput_of_reorderedTo : ¬∀ (s t : Schema) (o : BuildOptions) (b c : Build),
    s.ReorderedTo t → ofSchema s o = .ok b → ofSchema t o = .ok c → b.SameOutput c := by
  have hb : ((ofSchema (boxOf (alikeRadius false)) {}).toOption.map fun b =>
      b.compiled.tree.keys) = some ["borderRadius__6"] := by decide +kernel
  have hc : ((ofSchema (boxOf (alikeRadius true)) {}).toOption.map fun b =>
      b.compiled.tree.keys) = some ["borderRadius__4"] := by decide +kernel
  obtain ⟨b, hb, hkeys⟩ := exists_of_toOption_map hb
  obtain ⟨c, hc, hkeys'⟩ := exists_of_toOption_map hc
  intro hsame
  have husage := (hsame _ _ _ b c (boxOf_reorderedTo alikeRadius_reorderedTo) hb hc).usage
  rw [(madeFrom hb).usage, (madeFrom hc).usage, Usage.ofTree, Usage.ofTree, hkeys, hkeys'] at husage
  have hmem : "borderRadius__6" ∈ Dict.keys (Usage.ofKeys ["borderRadius__6"]) :=
    Usage.mem_keys_ofKeys.2 List.mem_cons_self
  rw [husage, Usage.mem_keys_ofKeys] at hmem
  exact absurd hmem (by decide)

def twoStates (turned : Bool) : Document :=
  let black : Document := .list [pixels 0, pixels 0, pixels 0, pixels 1]
  .map (inTurn turned (.text "hover", .map [(.text "ref", black)])
    (.text "selected", .map (inTurn turned (.text "rest", black) (.text "hover", black))))

def twoSizes (turned : Bool) : Document :=
  .map (inTurn turned (.text "s:md:1", pixels 4) (.text "s:lg:1", pixels 6))

/-- A box with scales, palettes and effects, its members in one order or the other. -/
def mixedBox (turned : Bool) : Element where
  decorations := none
  scales := some (inTurn turned (.padding, .number 8)
    (.margin, .sizes (inTurn turned ("s:all", .number 4) ("s:md:1", .number 6))))
  palettes := some
    [("brand", [(.boxColor, [("primary", .map [(.text "soft", twoStates turned)])])])]
  effects := some ⟨none, some [("rest", twoSizes turned)]⟩

theorem mixedBox_reorderedTo : (mixedBox false).ReorderedTo (mixedBox true) where
  decorations := rfl
  scales := by
    refine .some (reordered_inTurn (by decide) (.inl rfl) ?_)
    exact .inr ⟨_, _, rfl, rfl, reordered_inTurn (by decide) (.inl rfl) (.inl rfl)⟩
  palettes := by
    refine .some (reordered_single (reordered_single (reordered_single ?_)))
    refine .inr ⟨_, _, rfl, rfl, reordered_single ?_⟩
    refine .inr ⟨_, _, rfl, rfl, reordered_inTurn (by simp) rfl ?_⟩
    exact .inr ⟨_, _, rfl, rfl, reordered_inTurn (by simp) rfl rfl⟩
  effects := by
    refine .some ⟨.none, .some (reordered_single ?_)⟩
    exact .inr ⟨_, _, rfl, rfl, reordered_inTurn (by simp) (.inl rfl) (.inl rfl)⟩

theorem distinctRadiusKeys_mixedBox : (boxOf (mixedBox false)).DistinctRadiusKeys := by
  have hsizes : (twoSizes false).DistinctKeys 2 := by
    simp [twoSizes, inTurn, pixels, Document.DistinctKeys, Document.keyText, Document.scalarValue,
      Value.text?]
  rintro place hplace e he
  obtain rfl : place = ("card", "box", mixedBox false) := List.mem_singleton.1 hplace
  cases he
  intro m hm
  rw [List.mem_singleton.1 hm]
  exact hsizes

theorem sameOutput_mixedBox : ∃ b c, ofSchema (boxOf (mixedBox false)) {} = .ok b
    ∧ ofSchema (boxOf (mixedBox true)) {} = .ok c ∧ b.SameOutput c := by
  have hb : ((ofSchema (boxOf (mixedBox false)) {}).toOption.map fun b =>
      b.compiled.tree.keys.length) = some 8 := by decide +kernel
  have hc : ((ofSchema (boxOf (mixedBox true)) {}).toOption.map fun b =>
      b.compiled.tree.keys.length) = some 8 := by decide +kernel
  obtain ⟨b, hb, -⟩ := exists_of_toOption_map hb
  obtain ⟨c, hc, -⟩ := exists_of_toOption_map hc
  exact ⟨b, c, hb, hc, sameOutput_of_reorderedTo (boxOf_reorderedTo mixedBox_reorderedTo)
    distinctRadiusKeys_mixedBox hb hc⟩

end Build
end AtomicCss

import AtomicCss.Proofs.Agreement
import AtomicCss.Proofs.ScaleKeys

/-!
# The order of the core bundle

The numbers of an element's scales have their rules in the core bundle. There the media query and
then the class name decide which of two comes first. So a shorthand stands before a property of one
of its sides only if its class name is the lesser, and class names come from the usage of keys in
the whole schema.
-/
namespace AtomicCss

namespace Build

/-- The rule that gives a property a value on the class of a key, from a width on. -/
def ruleOn (b : Build) (key : String) (p : ScaleProperty) (value : String)
    (width : WithBot Int) : Rule :=
  ⟨Rule.bodyOf (Rule.bare (ClassName.of b.names key)) p.css value, Rule.mediaFrom width⟩

namespace MadeFrom

variable {s : Schema} {o : BuildOptions} {b : Build} (h : b.MadeFrom s o)
include h

theorem exists_responsive (hs : s.DistinctPlaces) {component element : String} {e : Element}
    (he : (component, element, e) ∈ s.places) {scales : Scales} (hscales : e.scales = some scales)
    {p : ScaleProperty} {scale : Scale} (hp : (p, scale) ∈ scales) :
    ∃ keys, Keys.responsive p.name {} scale.toValue = .ok keys := by
  obtain ⟨entry, section?, -, hof⟩ := h.faithful.exists_entry hs he
  exact Entry.exists_responsive (Compiled.sectionsOf hof) hscales hp

/-- The keys of a scale stand in the tree, and their rules in the core bundle. -/
theorem exists_scaleRule (hs : s.DistinctPlaces) {component element : String} {e : Element}
    (he : (component, element, e) ∈ s.places) {scales : Scales} (hscales : e.scales = some scales)
    {p : ScaleProperty} {scale : Scale} (hp : (p, scale) ∈ scales) {label key : String}
    (hkey : ∀ keys, Keys.responsive p.name {} scale.toValue = .ok keys → (label, key) ∈ keys) :
    key ∈ b.compiled.tree.keys
      ∧ ∃ r ∈ b.rules.core, Stylesheet.ruleOf (rulesOf s o) b.names key = .ok r := by
  obtain ⟨entry, section?, hat, hof⟩ := h.faithful.exists_entry hs he
  have hentry := (KeyTree.mem_entries_iff h.faithful.tree).2 hat
  have hsections := Compiled.sectionsOf hof
  obtain ⟨keys, hkeys⟩ := Entry.exists_responsive hsections hscales hp
  have hk : entry.HasPlain key := .inr ((Entry.mem_scaleKeys hsections).2
    ⟨scales, p, scale, keys, label, hscales, hp, hkeys, hkey keys hkeys⟩)
  obtain ⟨r, hr⟩ := h.correct.named component element entry key hentry (.inl hk)
  exact ⟨KeyTree.mem_keys_of_mem hentry hk.mem_keys, r,
    (h.correct.core r).2 ⟨component, element, entry, key, hentry, hr, .inl hk⟩, hr⟩

/-- The text of a rule of a scale is placed by its rank. -/
theorem text_ruleOn_lt_iff {key key' : String} (hk : key ∈ b.compiled.tree.keys)
    (hk' : key' ∈ b.compiled.tree.keys) (hne : key ≠ key') (p p' : ScaleProperty)
    (value value' : String) (width width' : WithBot Int) :
    (b.ruleOn key p value width).text < (b.ruleOn key' p' value' width').text
      ↔ Rule.rank width (ClassName.of b.names key) < Rule.rank width' (ClassName.of b.names key') :=
  Rule.text_lt_text_iff (h.isWord hk) (h.isWord hk')
    (fun heq => hne (h.names_inj hk hk' heq)) _ _ _ _ _ _

theorem text_ruleOn_ne {key key' : String} (hk : key ∈ b.compiled.tree.keys)
    (hk' : key' ∈ b.compiled.tree.keys) (hne : key ≠ key') (p p' : ScaleProperty)
    (value value' : String) (width width' : WithBot Int) :
    (b.ruleOn key p value width).text ≠ (b.ruleOn key' p' value' width').text := by
  intro htext
  have hrank : Rule.rank width (ClassName.of b.names key)
      ≠ Rule.rank width' (ClassName.of b.names key') :=
    fun heq => hne (h.names_inj hk hk' (Prod.mk.inj heq).2)
  rcases lt_or_gt_of_ne hrank with hlt | hlt
  · exact ((h.text_ruleOn_lt_iff hk hk' hne p p' value value' width width').2 hlt).ne htext
  · exact ((h.text_ruleOn_lt_iff hk' hk hne.symm p' p value' value width' width).2 hlt).ne
      htext.symm

/-- Of two rules of scales in the core bundle the one of lesser rank comes first. -/
theorem pair_sublist_coreRules_iff {key key' : String} (hk : key ∈ b.compiled.tree.keys)
    (hk' : key' ∈ b.compiled.tree.keys) (hne : key ≠ key') {p p' : ScaleProperty}
    {value value' : String} {width width' : WithBot Int}
    (hr : b.ruleOn key p value width ∈ b.rules.core)
    (hr' : b.ruleOn key' p' value' width' ∈ b.rules.core) (combineMedia : Bool) :
    [b.ruleOn key p value width, b.ruleOn key' p' value' width'].Sublist (b.coreRules combineMedia)
      ↔ Rule.rank width (ClassName.of b.names key)
        < Rule.rank width' (ClassName.of b.names key') := by
  have htext := h.text_ruleOn_ne hk hk' hne p p' value value' width width'
  rw [coreRules, Stylesheet.pair_sublist_written_iff hr hr' htext, h.text_ruleOn_lt_iff hk hk' hne]

/-- The number of a scale for a breakpoint has its rule in the core bundle. -/
theorem exists_widthRule (hs : s.DistinctPlaces) {component element : String} {e : Element}
    (he : (component, element, e) ∈ s.places) {scales : Scales} (hscales : e.scales = some scales)
    {p : ScaleProperty} {scale : Scale} (hp : (p, scale) ∈ scales) {size : String}
    (hsize : size ∈ elementSizes) (label breakpoint : String) {n : Number}
    (hkey : ∀ keys, Keys.responsive p.name {} scale.toValue = .ok keys →
      (label, Keys.widthKey p size breakpoint n) ∈ keys) :
    Keys.widthKey p size breakpoint n ∈ b.compiled.tree.keys ∧ ∃ css, Rule.lengthOf p n = some css
      ∧ ∃ r ∈ b.rules.core,
        Stylesheet.ruleOf (rulesOf s o) b.names (Keys.widthKey p size breakpoint n) = .ok r
        ∧ r = b.ruleOn (Keys.widthKey p size breakpoint n) p css
          (Rule.writtenWidth (breakpointsOf s o) breakpoint) := by
  obtain ⟨hk, r, hmem, hr⟩ := h.exists_scaleRule hs he hscales hp hkey
  obtain ⟨css, hcss, hrule⟩ := Rule.ofKey_widthKey (t := breakpointsOf s o) rfl hsize hr
  exact ⟨hk, css, hcss, r, hmem, hr, hrule⟩

end MadeFrom
end Build

/-- The properties of the single sides that a shorthand sets together. -/
def ScaleProperty.sides : ScaleProperty → List ScaleProperty
  | margin => [marginTop, marginRight, marginBottom, marginLeft]
  | padding => [paddingTop, paddingRight, paddingBottom, paddingLeft]
  | _ => []

theorem Keys.plainKey_inj {p q : ScaleProperty} {m n : Number} (h : plainKey p m = plainKey q n) :
    p = q := by
  have hplain : ∀ p : ScaleProperty, StyleKey.IsPlain p.name := by intro p; cases p <;> decide
  have hdecode := congrArg StyleKey.decode h
  rw [plainKey, plainKey, StyleKey.decode_stateless (hplain p),
    StyleKey.decode_stateless (hplain q)] at hdecode
  simp only [Except.ok.injEq, StyleKey.Decoded.mk.injEq] at hdecode
  have hname : ∀ p : ScaleProperty, ScaleProperty.ofName? p.name = some p := by
    intro p
    cases p <;> rfl
  exact Option.some.inj ((hname p).symm.trans (hdecode.1 ▸ hname q))

theorem Keys.plainKey_ne_of_side {short side : ScaleProperty} (h : side ∈ short.sides)
    (m n : Number) : plainKey short m ≠ plainKey side n := by
  have hsides : ∀ short side : ScaleProperty, side ∈ short.sides → short ≠ side := by
    intro short side
    cases short <;> cases side <;> decide
  exact fun heq => hsides short side h (plainKey_inj heq)

namespace Build

variable {s : Schema} {o : BuildOptions} {b : Build}

/-- The number of a scale for all sizes has its rule in the core bundle. -/
theorem MadeFrom.exists_plainRule (h : b.MadeFrom s o) (hs : s.DistinctPlaces)
    {component element : String} {e : Element} (he : (component, element, e) ∈ s.places)
    {scales : Scales} (hscales : e.scales = some scales) {p : ScaleProperty} {n : Number}
    (hp : (p, .number n) ∈ scales) :
    Keys.plainKey p n ∈ b.compiled.tree.keys ∧ ∃ css, Rule.lengthOf p n = some css
      ∧ b.ruleOn (Keys.plainKey p n) p css ⊥ ∈ b.rules.core := by
  have hsize : "s:md:1" ∈ elementSizes := by decide
  have hkey : ∀ keys, Keys.responsive p.name {} (Scale.number n).toValue = .ok keys →
      (allSizes, Keys.widthKey p "s:md:1" allBreakpoints n) ∈ keys := by
    intro keys hkeys
    rw [Keys.eq_of_responsive_number hkeys, Keys.widthKey_all]
    exact List.mem_singleton_self _
  obtain ⟨hk, css, hcss, r, hr, -, rfl⟩ :=
    h.exists_widthRule hs he hscales hp hsize allSizes allBreakpoints hkey
  exact ⟨hk, css, hcss, hr⟩

/-- A shorthand stands before a side of the same element exactly if the class name of its key is
the lesser. -/
theorem shorthand_before_side_iff (h : ofSchema s o = .ok b) (hs : s.DistinctPlaces)
    {component element : String} {e : Element} (he : (component, element, e) ∈ s.places)
    {scales : Scales} (hscales : e.scales = some scales) {short side : ScaleProperty}
    (hside : side ∈ short.sides) {m n : Number} (hm : (short, .number m) ∈ scales)
    (hn : (side, .number n) ∈ scales) :
    ∃ css css', Rule.lengthOf short m = some css ∧ Rule.lengthOf side n = some css'
      ∧ b.ruleOn (Keys.plainKey short m) short css ⊥ ∈ b.coreRules o.combineMedia
      ∧ b.ruleOn (Keys.plainKey side n) side css' ⊥ ∈ b.coreRules o.combineMedia
      ∧ ([b.ruleOn (Keys.plainKey short m) short css ⊥,
            b.ruleOn (Keys.plainKey side n) side css' ⊥].Sublist (b.coreRules o.combineMedia)
          ↔ ClassName.of b.names (Keys.plainKey short m)
            < ClassName.of b.names (Keys.plainKey side n)) := by
  replace h := madeFrom h
  obtain ⟨hk, css, hcss, hr⟩ := h.exists_plainRule hs he hscales hm
  obtain ⟨hk', css', hcss', hr'⟩ := h.exists_plainRule hs he hscales hn
  have hne := Keys.plainKey_ne_of_side hside m n
  refine ⟨css, css', hcss, hcss', Stylesheet.mem_written.2 hr, Stylesheet.mem_written.2 hr', ?_⟩
  rw [h.pair_sublist_coreRules_iff hk hk' hne hr hr' _, Rule.rank_bot_lt_rank_bot]

/-- A margin that is different at the top. -/
def marginScales : Scales := [(.marginTop, .number 4), (.margin, .number 8)]

def marginBox (others : Dict Element) : Schema :=
  .ofElements (others ++ [("box", ⟨none, some marginScales, none, none⟩)])

theorem mem_places_marginBox (others : Dict Element) :
    ("card", "box", ⟨none, some marginScales, none, none⟩) ∈ (marginBox others).places := by
  simp [Schema.places, marginBox, Schema.ofElements]

def lid : Dict Element := [("lid", ⟨none, some [(.margin, .number 8)], none, none⟩)]

/-- With another use of the margin its class name is the lesser. -/
theorem margin_before_marginTop : ∃ b, ofSchema (marginBox lid) {} = .ok b
    ∧ [⟨".a \x7b margin: 8px \x7d", none⟩, ⟨".b \x7b margin-top: 4px \x7d", none⟩].Sublist
      (b.coreRules true) := by
  have hb : ((ofSchema (marginBox lid) {}).toOption.map fun b => b.compiled.tree.keys)
      = some ["margin__8", "marginTop__4", "margin__8"] := by decide +kernel
  obtain ⟨b, hb, hkeys⟩ := exists_of_toOption_map hb
  have hnames : b.names = [("margin__8", "a"), ("marginTop__4", "b")] := by
    rw [(madeFrom hb).names, Usage.classNames, Usage.ofTree, hkeys,
      Usage.ofKeys_of_pairwise (by decide +kernel)]
    decide +kernel
  obtain ⟨css, css', hcss, hcss', -, -, hiff⟩ := shorthand_before_side_iff hb (by decide)
    (mem_places_marginBox lid) rfl (by decide : .marginTop ∈ ScaleProperty.margin.sides)
    (List.mem_cons_of_mem _ List.mem_cons_self) List.mem_cons_self
  have hmargin : Rule.lengthOf .margin 8 = some "8px" := by decide +kernel
  have htop : Rule.lengthOf .marginTop 4 = some "4px" := by decide +kernel
  obtain rfl := Option.some.inj (hcss.symm.trans hmargin)
  obtain rfl := Option.some.inj (hcss'.symm.trans htop)
  refine ⟨b, hb, ?_⟩
  rw [ruleOn, ruleOn, hnames] at hiff
  exact hiff.2 (by decide +kernel)

/-- With each used once, the margin comes last and takes back the margin at the top. -/
theorem marginTop_before_margin : ∃ b, ofSchema (marginBox []) {} = .ok b
    ∧ [⟨".a \x7b margin-top: 4px \x7d", none⟩, ⟨".b \x7b margin: 8px \x7d", none⟩].Sublist
      (b.coreRules true)
    ∧ ¬[⟨".b \x7b margin: 8px \x7d", none⟩, ⟨".a \x7b margin-top: 4px \x7d", none⟩].Sublist
      (b.coreRules true) := by
  have hb : ((ofSchema (marginBox []) {}).toOption.map fun b => b.compiled.tree.keys)
      = some ["marginTop__4", "margin__8"] := by decide +kernel
  obtain ⟨b, hb, hkeys⟩ := exists_of_toOption_map hb
  have hnames : b.names = [("marginTop__4", "a"), ("margin__8", "b")] := by
    rw [(madeFrom hb).names, Usage.classNames, Usage.ofTree, hkeys,
      Usage.ofKeys_of_pairwise (by decide +kernel)]
    decide +kernel
  have hplaces := mem_places_marginBox []
  obtain ⟨hk, css, hcss, hr⟩ := (madeFrom hb).exists_plainRule (by decide) hplaces rfl
    (List.mem_cons_of_mem _ List.mem_cons_self)
  obtain ⟨hk', css', hcss', hr'⟩ := (madeFrom hb).exists_plainRule (by decide) hplaces rfl
    List.mem_cons_self
  have hmargin : Rule.lengthOf .margin 8 = some "8px" := by decide +kernel
  have htop : Rule.lengthOf .marginTop 4 = some "4px" := by decide +kernel
  obtain rfl := Option.some.inj (hcss.symm.trans hmargin)
  obtain rfl := Option.some.inj (hcss'.symm.trans htop)
  have hne : Keys.plainKey .margin 8 ≠ Keys.plainKey .marginTop 4 := by decide +kernel
  have hafter := (madeFrom hb).pair_sublist_coreRules_iff hk' hk hne.symm hr' hr true
  have hbefore := (madeFrom hb).pair_sublist_coreRules_iff hk hk' hne hr hr' true
  rw [Rule.rank_bot_lt_rank_bot, ruleOn, ruleOn, hnames] at hafter hbefore
  exact ⟨b, hb, hafter.2 (by decide +kernel), fun h => absurd (hbefore.1 h) (by decide +kernel)⟩

end Build
end AtomicCss

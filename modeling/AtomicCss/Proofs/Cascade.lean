import AtomicCss.Proofs.CoreOrder
import Mathlib.Data.Int.ConditionallyCompleteOrder
import Mathlib.Data.List.MinMax
import Mathlib.Order.ConditionallyCompleteLattice.Basic

/-!
# Which breakpoint is in effect

Of the rules of one size of a scale that apply at a viewport width, the last in the core bundle is
in effect. The bundle is in the order of the queries' texts, so this is the rule of the breakpoint
of greatest width only as far as texts are ordered as widths are.
-/
namespace AtomicCss

namespace Rule

/-- A rule applies at a viewport width if its query is about no greater width. -/
def AppliesAt (r : Rule) (w : Int) : Prop :=
  ∀ query ∈ r.media, ∃ width ≤ w, query = MediaQueries.atLeast width

/-- The last of the rules on some classes that applies at a width. -/
def InEffect (rules : List Rule) (classes : List String) (w : Int) (r : Rule) : Prop :=
  ∃ front back, rules = front ++ r :: back ∧ styledClass r.body ∈ classes ∧ r.AppliesAt w
    ∧ ∀ r' ∈ back, styledClass r'.body ∈ classes → ¬r'.AppliesAt w

/-- A rule on a bare class gives a property a value. -/
def Declares (r : Rule) (property value : String) : Prop :=
  r.body = bodyOf (bare (styledClass r.body)) property value

theorem appliesAt_mediaFrom {body : String} {width : WithBot Int} {w : Int} :
    AppliesAt ⟨body, mediaFrom width⟩ w ↔ width ≤ w := by
  induction width with
  | bot => exact iff_of_true (fun _ h => by cases h) bot_le
  | coe n =>
    rw [WithBot.coe_le_coe]
    constructor
    · intro h
      obtain ⟨width, hle, heq⟩ := h _ rfl
      rwa [MediaQueries.atLeast_injective heq]
    · rintro hle _ ⟨rfl⟩
      exact ⟨n, hle, rfl⟩

theorem InEffect.unique {rules : List Rule} {classes : List String} {w : Int} {r r' : Rule}
    (h : InEffect rules classes w r) (h' : InEffect rules classes w r') : r = r' := by
  obtain ⟨front, back, hrules, hclass, happlies, hback⟩ := h
  obtain ⟨front', back', hrules', hclass', happlies', hback'⟩ := h'
  rcases List.append_eq_append_iff.1 (hrules.symm.trans hrules') with ⟨l, -, hl⟩ | ⟨l, -, hl⟩
  · cases l with
    | nil => exact (List.cons.inj hl).1
    | cons c l =>
      have hmem : r' ∈ back := by simp [(List.cons.inj hl).2]
      exact absurd happlies' (hback r' hmem hclass')
  · cases l with
    | nil => exact (List.cons.inj hl).1.symm
    | cons c l =>
      have hmem : r ∈ back' := by simp [(List.cons.inj hl).2]
      exact absurd happlies (hback' r hmem hclass)

/-- The width that a breakpoint stands for. The one for all widths is below every other. -/
def authoredWidth (t : BreakpointTable) (breakpoint : String) : WithBot Int :=
  if breakpoint = allBreakpoints then ⊥
  else
    match t.get? breakpoint with
    | some width => width
    | none => ⊥

/-- A rule is written for the width of its breakpoint, or for all widths. -/
theorem writtenWidth_eq (t : BreakpointTable) (breakpoint : String) :
    writtenWidth t breakpoint = ⊥ ∨ writtenWidth t breakpoint = authoredWidth t breakpoint := by
  rw [writtenWidth, StyleKey.writtenBreakpoint, authoredWidth]
  split_ifs with hall
  · exact .inl rfl
  · cases hknown : Location.known (some breakpoint) with
    | none => exact .inl rfl
    | some b =>
      have hb : breakpoint = b := Option.some.inj (Option.filter_eq_some_iff.1 hknown).1
      rw [hb]
      exact .inr rfl

theorem writtenWidth_le (t : BreakpointTable) (breakpoint : String) :
    writtenWidth t breakpoint ≤ authoredWidth t breakpoint := by
  rcases writtenWidth_eq t breakpoint with h | h
  · rw [h]
    exact bot_le
  · exact h.le

end Rule

/-- Some width is beyond a bound and no more of some bounds than those up to it. -/
theorem exists_width (bound : WithBot Int) (bounds : List (WithBot Int)) :
    ∃ w : Int, bound ≤ w ∧ ∀ x ∈ bounds, x ≤ w → x ≤ bound := by
  induction bound with
  | coe n => exact ⟨n, le_rfl, fun _ _ h => h⟩
  | bot =>
    induction bounds with
    | nil => exact ⟨0, bot_le, by simp⟩
    | cons x bounds ih =>
      obtain ⟨w, -, hw⟩ := ih
      induction x with
      | bot => exact ⟨w, bot_le, by simpa using hw⟩
      | coe n =>
        refine ⟨min w (n - 1), bot_le, fun x hx hle => ?_⟩
        rcases List.mem_cons.1 hx with rfl | hx
        · rw [WithBot.coe_le_coe] at hle
          omega
        · exact hw x hx (hle.trans (WithBot.coe_le_coe.2 (min_le_left _ _)))

/-- Some element of the schema has numbers by breakpoint for a size of a scale. -/
def Schema.HasWidths (s : Schema) (p : ScaleProperty) (size : String) (numbers : Dict Number) :
    Prop :=
  size ∈ elementSizes ∧ ∃ component element e scales sizes, (component, element, e) ∈ s.places
    ∧ e.scales = some scales ∧ (p, Scale.sizes sizes) ∈ scales
    ∧ (size, SizeScale.widths numbers) ∈ sizes

namespace Build

def sizeClasses (b : Build) (p : ScaleProperty) (size : String) (scale : SizeScale) : List String :=
  ((Keys.keysAtSize p.name {} size scale.toValue).toOption.getD []).map fun (_, key) =>
    ClassName.of b.names key

/-- At every width, of the numbers whose breakpoint is not beyond the width, the one with the
greatest breakpoint is in effect. -/
def CascadesByWidth (b : Build) (t : BreakpointTable) (combineMedia : Bool) (p : ScaleProperty)
    (size : String) (numbers : Dict Number) : Prop :=
  ∀ (w : Int), ∀ m ∈ numbers, Rule.authoredWidth t m.1 ≤ w →
    (∀ m' ∈ numbers, Rule.authoredWidth t m'.1 ≤ w →
      Rule.authoredWidth t m'.1 ≤ Rule.authoredWidth t m.1) →
    ∃ r css, Rule.InEffect (b.coreRules combineMedia) (b.sizeClasses p size (.widths numbers)) w r
      ∧ Rule.lengthOf p m.2 = some css ∧ r.Declares p.css css

/-- The place of the rule of a number in the core bundle. -/
def place (b : Build) (t : BreakpointTable) (p : ScaleProperty) (size : String)
    (m : String × Number) : WithBot String ×ₗ String :=
  Rule.rank (Rule.writtenWidth t m.1) (ClassName.of b.names (Keys.widthKey p size m.1 m.2))

/-- The number whose rule is the last of those that hold at a width. -/
structure IsLast (b : Build) (t : BreakpointTable) (p : ScaleProperty) (size : String)
    (numbers : Dict Number) (width : WithBot Int) (m : String × Number) : Prop where
  mem : m ∈ numbers
  holds : Rule.writtenWidth t m.1 ≤ width
  last : ∀ m' ∈ numbers, Rule.writtenWidth t m'.1 ≤ width →
    b.place t p size m' ≤ b.place t p size m

variable {s : Schema} {o : BuildOptions} {b : Build} {p : ScaleProperty} {size : String}
  {numbers : Dict Number}

namespace MadeFrom

variable (h : b.MadeFrom s o) (hs : s.DistinctPlaces) (hw : s.HasWidths p size numbers)
include h hs hw

theorem mem_sizeClasses {c : String} : c ∈ b.sizeClasses p size (.widths numbers)
    ↔ ∃ m ∈ numbers, ClassName.of b.names (Keys.widthKey p size m.1 m.2) = c := by
  obtain ⟨hsize, component, element, e, scales, sizes, he, hscales, hp, hn⟩ := hw
  obtain ⟨keys, hkeys⟩ := h.exists_responsive hs he hscales hp
  obtain ⟨part, hpart, -⟩ := Keys.exists_keysAtSize_of_responsive hkeys hn
  rw [sizeClasses, hpart, Except.toOption, Option.getD_some,
    Keys.eq_of_keysAtSize_widths hsize hpart]
  simp

theorem exists_numberRule {m : String × Number} (hm : m ∈ numbers) :
    Keys.widthKey p size m.1 m.2 ∈ b.compiled.tree.keys ∧ ∃ css, Rule.lengthOf p m.2 = some css
      ∧ ∃ r ∈ b.rules.core,
        Stylesheet.ruleOf (rulesOf s o) b.names (Keys.widthKey p size m.1 m.2) = .ok r
        ∧ r = b.ruleOn (Keys.widthKey p size m.1 m.2) p css
          (Rule.writtenWidth (breakpointsOf s o) m.1) := by
  obtain ⟨hsize, component, element, e, scales, sizes, he, hscales, hp, hn⟩ := hw
  exact h.exists_widthRule hs he hscales hp hsize size m.1 fun keys hkeys =>
    Keys.mem_responsive_sizes hkeys hn hsize hm

theorem exists_number_of_styledClass {r : Rule} (hr : r ∈ b.rules.core)
    (hclass : Rule.styledClass r.body ∈ b.sizeClasses p size (.widths numbers)) :
    ∃ m ∈ numbers, Stylesheet.ruleOf (rulesOf s o) b.names (Keys.widthKey p size m.1 m.2) = .ok r
      ∧ ∃ css, r = b.ruleOn (Keys.widthKey p size m.1 m.2) p css
        (Rule.writtenWidth (breakpointsOf s o) m.1) := by
  obtain ⟨m, hm, hname⟩ := (h.mem_sizeClasses hs hw).1 hclass
  obtain ⟨hk, css, -, r', -, hrule, hon⟩ := h.exists_numberRule hs hw hm
  have hr := h.eq_of_styledClass (fun _ hk _ => h.styledClass_ruleOf hk)
    (fun _ => h.exists_key_of_mem_core) hk hr hname.symm
  obtain rfl := Except.ok.inj (hrule.symm.trans hr)
  exact ⟨m, hm, hr, css, hon⟩

/-- The last rule that holds at a width is the one in effect. -/
theorem inEffect_of_isLast {w : Int} {m : String × Number}
    (hm : b.IsLast (breakpointsOf s o) p size numbers w m) (combineMedia : Bool) :
    ∃ r css, Rule.InEffect (b.coreRules combineMedia) (b.sizeClasses p size (.widths numbers)) w r
      ∧ Rule.lengthOf p m.2 = some css ∧ r.Declares p.css css := by
  obtain ⟨hk, css, hcss, r, hr, hrule, hon⟩ := h.exists_numberRule hs hw hm.mem
  have hclass := h.styledClass_ruleOf hk hrule
  obtain ⟨front, back, hrules⟩ := List.append_of_mem
    (Stylesheet.mem_written (o := ⟨false, combineMedia⟩).2 hr)
  have hback : ∀ r' ∈ back, r' ∈ b.rules.core ∧ [r, r'].Sublist (b.coreRules combineMedia) := by
    intro r' hr'
    rw [← Stylesheet.mem_written (o := ⟨false, combineMedia⟩), coreRules, hrules]
    exact ⟨List.mem_append_right _ (List.mem_cons_of_mem _ hr'),
      ((List.singleton_sublist.2 hr').cons_cons r).trans (List.sublist_append_right front _)⟩
  refine ⟨r, css, ⟨front, back, hrules, ?listed, ?applies, ?last⟩, hcss, ?declares⟩
  case listed =>
    rw [hclass, h.mem_sizeClasses hs hw]
    exact ⟨m, hm.mem, rfl⟩
  case applies =>
    rw [hon]
    exact Rule.appliesAt_mediaFrom.2 hm.holds
  case last =>
    intro r' hr' hclass' happlies
    obtain ⟨hcore, hbefore⟩ := hback r' hr'
    obtain ⟨m', hm', hrule', css', hon'⟩ := h.exists_number_of_styledClass hs hw hcore hclass'
    obtain ⟨hk', -⟩ := h.exists_numberRule hs hw hm'
    by_cases hkeys : Keys.widthKey p size m.1 m.2 = Keys.widthKey p size m'.1 m'.2
    · -- The same rule cannot stand there again.
      obtain rfl : r = r' := Except.ok.inj (hrule.symm.trans (hkeys ▸ hrule'))
      have hnodup := Stylesheet.nodup_ordered false b.rules.core
      rw [← Stylesheet.written_eq ⟨false, combineMedia⟩, hrules] at hnodup
      exact (List.nodup_cons.1 (List.nodup_append.1 hnodup).2.1).1 hr'
    · have hlast := hm.last m' hm' (Rule.appliesAt_mediaFrom.1 (hon' ▸ happlies))
      subst hon hon'
      exact absurd ((h.pair_sublist_coreRules_iff hk hk' hkeys hr hcore combineMedia).1 hbefore)
        (not_lt_of_ge hlast)
  case declares =>
    rw [Rule.Declares, hclass, hon]
    rfl

end MadeFrom

theorem exists_isLast (b : Build) (p : ScaleProperty) (size : String) {t : BreakpointTable}
    {width : WithBot Int} {m : String × Number} (hm : m ∈ numbers)
    (hle : Rule.writtenWidth t m.1 ≤ width) : ∃ m', b.IsLast t p size numbers width m' := by
  let holding := numbers.filter fun m => decide (Rule.writtenWidth t m.1 ≤ width)
  have hmem : ∀ m, m ∈ holding ↔ m ∈ numbers ∧ Rule.writtenWidth t m.1 ≤ width := by
    intro m
    rw [List.mem_filter, decide_eq_true_eq]
  cases hmax : holding.argmax (b.place t p size) with
  | none =>
    rw [List.argmax_eq_none] at hmax
    exact absurd ((hmem m).2 ⟨hm, hle⟩) (by simp [hmax])
  | some m' =>
    obtain ⟨hm', hle'⟩ := (hmem m').1 (List.argmax_mem hmax)
    exact ⟨m', hm', hle', fun m'' hm'' hle'' =>
      List.le_of_mem_argmax ((hmem m'').2 ⟨hm'', hle''⟩) hmax⟩

/-- Between a breakpoint and the next greater one the same rules hold. -/
theorem isLast_authoredWidth_iff {t : BreakpointTable} {w : Int} {m m' : String × Number}
    (hle : Rule.authoredWidth t m.1 ≤ w) (hgreatest : ∀ m' ∈ numbers,
      Rule.authoredWidth t m'.1 ≤ w → Rule.authoredWidth t m'.1 ≤ Rule.authoredWidth t m.1) :
    b.IsLast t p size numbers (Rule.authoredWidth t m.1) m' ↔ b.IsLast t p size numbers w m' := by
  have hholds : ∀ m' ∈ numbers, Rule.writtenWidth t m'.1 ≤ w
      ↔ Rule.writtenWidth t m'.1 ≤ Rule.authoredWidth t m.1 := by
    refine fun m' hm' => ⟨fun h => ?_, fun h => h.trans hle⟩
    rcases Rule.writtenWidth_eq t m'.1 with hbot | hauthored
    · rw [hbot]
      exact bot_le
    · rw [hauthored] at h ⊢
      exact hgreatest m' hm' h
  constructor
  · rintro ⟨hm', hle', hlast⟩
    exact ⟨hm', (hholds m' hm').2 hle', fun m'' hm'' h => hlast m'' hm'' ((hholds m'' hm'').1 h)⟩
  · rintro ⟨hm', hle', hlast⟩
    exact ⟨hm', (hholds m' hm').1 hle', fun m'' hm'' h => hlast m'' hm'' ((hholds m'' hm'').2 h)⟩

theorem MadeFrom.lengthOf_eq_of_cascades (h : b.MadeFrom s o) (hs : s.DistinctPlaces)
    (hw : s.HasWidths p size numbers) {combineMedia : Bool}
    (hc : b.CascadesByWidth (breakpointsOf s o) combineMedia p size numbers)
    {m m' : String × Number} (hm : m ∈ numbers) (hm' : b.IsLast (breakpointsOf s o) p size numbers
      (Rule.authoredWidth (breakpointsOf s o) m.1) m') :
    Rule.lengthOf p m'.2 = Rule.lengthOf p m.2 := by
  obtain ⟨w, hle, hbounds⟩ := exists_width (Rule.authoredWidth (breakpointsOf s o) m.1)
    (numbers.map fun m => Rule.authoredWidth (breakpointsOf s o) m.1)
  have hgreatest : ∀ m' ∈ numbers, Rule.authoredWidth (breakpointsOf s o) m'.1 ≤ w →
      Rule.authoredWidth (breakpointsOf s o) m'.1 ≤ Rule.authoredWidth (breakpointsOf s o) m.1 :=
    fun m' hm' => hbounds _ (List.mem_map.2 ⟨m', hm', rfl⟩)
  obtain ⟨r, css, hr, hcss, hdeclares⟩ := hc w m hm hle hgreatest
  obtain ⟨r', css', hr', hcss', hdeclares'⟩ := h.inEffect_of_isLast hs hw
    ((isLast_authoredWidth_iff hle hgreatest).1 hm') combineMedia
  obtain rfl := hr.unique hr'
  rw [hcss, hcss', Rule.bodyOf_inj (hdeclares.symm.trans hdeclares')]

theorem MadeFrom.cascades_of_lengthOf_eq (h : b.MadeFrom s o) (hs : s.DistinctPlaces)
    (hw : s.HasWidths p size numbers) (combineMedia : Bool)
    (hlast : ∀ m ∈ numbers, ∀ m', b.IsLast (breakpointsOf s o) p size numbers
      (Rule.authoredWidth (breakpointsOf s o) m.1) m' →
        Rule.lengthOf p m'.2 = Rule.lengthOf p m.2) :
    b.CascadesByWidth (breakpointsOf s o) combineMedia p size numbers := by
  intro w m hm hle hgreatest
  obtain ⟨m', hm'⟩ := exists_isLast b p size hm (Rule.writtenWidth_le (breakpointsOf s o) m.1)
  rw [← hlast m hm m' hm']
  exact h.inEffect_of_isLast hs hw ((isLast_authoredWidth_iff hle hgreatest).1 hm') combineMedia

/-- The breakpoints of a size cascade exactly if, from the width of each on, the last rule that
holds is that of its own number or of an equal one. -/
theorem cascadesByWidth_iff (h : ofSchema s o = .ok b) (hs : s.DistinctPlaces)
    (hw : s.HasWidths p size numbers) :
    b.CascadesByWidth (breakpointsOf s o) o.combineMedia p size numbers
      ↔ ∀ m ∈ numbers, ∀ m', b.IsLast (breakpointsOf s o) p size numbers
        (Rule.authoredWidth (breakpointsOf s o) m.1) m' →
          Rule.lengthOf p m'.2 = Rule.lengthOf p m.2 :=
  ⟨fun hc _ hm _ hm' => (madeFrom h).lengthOf_eq_of_cascades hs hw hc hm hm',
    (madeFrom h).cascades_of_lengthOf_eq hs hw o.combineMedia⟩

/-- A schema of one element that has a padding by breakpoint. -/
def paddedBox (numbers : Dict Number) : Schema :=
  .ofElements [("box", ⟨none, some [(.padding, .sizes [("s:md:1", .widths numbers)])], none, none⟩)]

theorem paddedBox_hasWidths (numbers : Dict Number) :
    (paddedBox numbers).HasWidths .padding "s:md:1" numbers := by
  refine ⟨by decide, "card", "box", ⟨none, some _, none, none⟩, _, _, ?_, rfl,
    List.mem_singleton_self _, List.mem_singleton_self _⟩
  simp [Schema.places, paddedBox, Schema.ofElements]

/-- A query of lesser text puts a rule first, whatever the classes are. -/
theorem place_lt_place {t : BreakpointTable} {m m' : String × Number}
    (h : (Rule.writtenWidth t m.1).map MediaQueries.atLeast
      < (Rule.writtenWidth t m'.1).map MediaQueries.atLeast) :
    b.place t p size m < b.place t p size m' := Prod.Lex.toLex_lt_toLex.2 (.inl h)

/-- Widths of three digits are ordered as their texts are. -/
theorem paddedBox_cascades : ∃ b,
    ofSchema (paddedBox [("bp:md:1", 8), ("bp:md:2", 12)]) {} = .ok b
      ∧ b.CascadesByWidth standardBreakpoints true .padding "s:md:1"
        [("bp:md:1", 8), ("bp:md:2", 12)] := by
  have hb : ((ofSchema (paddedBox [("bp:md:1", 8), ("bp:md:2", 12)]) {}).toOption.map fun b =>
      b.rules.core.length) = some 2 := by decide +kernel
  obtain ⟨b, hb, -⟩ := exists_of_toOption_map hb
  have ht : breakpointsOf (paddedBox [("bp:md:1", 8), ("bp:md:2", 12)]) {}
      = standardBreakpoints := by decide +kernel
  refine ⟨b, hb, ?_⟩
  have hiff := cascadesByWidth_iff hb (by decide) (paddedBox_hasWidths _)
  rw [ht] at hiff
  refine hiff.2 fun m hm m' hm' => ?_
  have hlt : b.place standardBreakpoints .padding "s:md:1" ("bp:md:1", 8)
      < b.place standardBreakpoints .padding "s:md:1" ("bp:md:2", 12) :=
    place_lt_place (by decide +kernel)
  simp only [List.mem_cons, List.not_mem_nil, or_false] at hm
  have hmem := hm'.mem
  simp only [List.mem_cons, List.not_mem_nil, or_false] at hmem
  rcases hm with rfl | rfl <;> rcases hmem with rfl | rfl
  · rfl
  · exact absurd hm'.holds (by decide +kernel)
  · exact absurd (hm'.last _ (by simp) (by decide +kernel)) (not_le_of_gt hlt)
  · rfl

/-- The text of the query for 1024 pixels comes before that for 768 pixels, so from 1024 pixels on
the padding is still the one for 768. -/
theorem paddedBox_not_cascades : ∃ b,
    ofSchema (paddedBox [("bp:md:2", 8), ("bp:md:3", 12)]) {} = .ok b
      ∧ ¬b.CascadesByWidth standardBreakpoints true .padding "s:md:1"
        [("bp:md:2", 8), ("bp:md:3", 12)] := by
  have hb : ((ofSchema (paddedBox [("bp:md:2", 8), ("bp:md:3", 12)]) {}).toOption.map fun b =>
      b.rules.core.length) = some 2 := by decide +kernel
  obtain ⟨b, hb, -⟩ := exists_of_toOption_map hb
  have ht : breakpointsOf (paddedBox [("bp:md:2", 8), ("bp:md:3", 12)]) {}
      = standardBreakpoints := by decide +kernel
  refine ⟨b, hb, fun hc => ?_⟩
  have hlt : b.place standardBreakpoints .padding "s:md:1" ("bp:md:3", 12)
      < b.place standardBreakpoints .padding "s:md:1" ("bp:md:2", 8) :=
    place_lt_place (by decide +kernel)
  have hlast : b.IsLast standardBreakpoints .padding "s:md:1" [("bp:md:2", 8), ("bp:md:3", 12)]
      (Rule.authoredWidth standardBreakpoints "bp:md:3") ("bp:md:2", 8) := by
    refine ⟨List.mem_cons_self, by decide +kernel, fun m hm _ => ?_⟩
    simp only [List.mem_cons, List.not_mem_nil, or_false] at hm
    rcases hm with rfl | rfl
    · exact le_rfl
    · exact hlt.le
  have hlength := (madeFrom hb).lengthOf_eq_of_cascades (by decide) (paddedBox_hasWidths _)
    (ht ▸ hc) (m := ("bp:md:3", 12)) (by simp) (ht ▸ hlast)
  exact absurd hlength (by decide +kernel)

end Build
end AtomicCss

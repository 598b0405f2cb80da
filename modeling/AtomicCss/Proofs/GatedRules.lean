import AtomicCss.Proofs.Bundles
import AtomicCss.Proofs.Sections
import AtomicCss.Proofs.StateMarks

/-!
# Which effects need a state

The rules of shadows and border radii are placed by their texts: those in which some state is found
go to the effects, the others to the core. What is found agrees with the key: a shadow is always
behind its gate, and a border radius needs a state if its key has one that applies.
-/
namespace AtomicCss

namespace Keys

/-- A key that a shadow is compiled to. -/
def IsOfShadow (key : String) : Prop :=
  ∃ shadow buckets, ofShadow shadow = .ok buckets ∧ key ∈ Entry.bucketKeys (some buckets)

/-- A key that a border radius is compiled to. -/
def IsOfBorderRadius (key : String) : Prop :=
  ∃ radius buckets, ofBorderRadius radius = .ok buckets ∧ key ∈ Entry.bucketKeys (some buckets)

theorem IsOfBorderRadius.not_isOfShadow {key : String} (h : IsOfBorderRadius key) :
    ¬IsOfShadow key := by
  rintro ⟨shadow, buckets, hshadow, hk⟩
  obtain ⟨radius, buckets', hradius, hk'⟩ := h
  have hcompatible := Rule.compatible_of_startsWith (startsWith_of_ofShadow hshadow hk)
    (startsWith_of_ofBorderRadius hradius hk')
  exact absurd hcompatible (by decide)

end Keys

namespace Rule

/-- Whether states apply: some natively, or all by force, as it is wanted or as one of them is
disabled. -/
def StatesApply (tokens : List String) (force : Bool) : Prop :=
  (∃ s : ActiveState, s.pseudo? ≠ none ∧ s.state.name ∈ tokens)
    ∨ tokens ≠ [] ∧ (force = true ∨ "disabled" ∈ tokens)

section InStates

variable {force : Bool} {className : String} {d : StyleKey.Decoded} {p : StyleProperty}
  {states : List ActiveState} {selectors : List Selector} {value : String} {r : Rule}
  (h : InStates force className d p states selectors value r)
include h

theorem InStates.mem_stateTokens (s : ActiveState) : s.state.name ∈ d.stateTokens ↔ s ∈ states := by
  have hinj : ∀ s ∈ ActiveState.all, ∀ t ∈ ActiveState.all,
      s.state.name = t.state.name → s = t := by
    decide
  rw [← h.named, List.mem_map]
  constructor
  · rintro ⟨t, ht, hname⟩
    rwa [← hinj t t.mem_all s s.mem_all hname]
  · exact fun hs => ⟨s, hs, rfl⟩

/-- A selector is on more than the bare class exactly if there is a gate or states apply. -/
theorem InStates.exists_notMem_bare_iff (hname : ClassName.IsWord className.toList) :
    (∃ s ∈ selectors, s ∉ bare className)
      ↔ Location.known p.gate ≠ none ∨ StatesApply d.stateTokens force := by
  have hdisabled : "disabled" ∈ d.stateTokens ↔ .disabled ∈ states :=
    h.mem_stateTokens .disabled
  have hnone : d.stateTokens ≠ [] ↔ states ≠ [] := by simp [← h.named]
  rw [Selector.exists_notMem_bare_iff hname p.isGate h.made, StatesApply, hdisabled, hnone]
  simp only [h.mem_stateTokens, and_comm]

end InStates

/-- A rule is placed by the states of its key: what its text shows of them is what its key has and
what its selectors ask for, so in the bundles it stands among the effects exactly if a selector is
on more than the bare class, and otherwise in the core. -/
def IsPlaced (o : RuleOptions) (key className : String) (r : Rule) : Prop :=
  ∃ d p selectors value, StyleKey.decode key = .ok d
    ∧ SelectorsOf d className (StyleProperty.gate p) o.force selectors
    ∧ r.body = bodyOf selectors p.css value
    ∧ (isGated r.text = true ↔ Keys.IsOfShadow key ∨ StatesApply d.stateTokens o.force)
    ∧ (isGated r.text = true ↔ ∃ s ∈ selectors, s ∉ bare className)
    ∧ ∀ names t b component element entry, BundleRules.ofTree o names t = .ok b →
      (component, element, entry) ∈ KeyTree.entries t → entry.HasEffect key →
      ClassName.of names key = className →
        (r ∈ b.effects ↔ ∃ s ∈ selectors, s ∉ bare className) ∧ (r ∉ b.effects → r ∈ b.core)

variable {o : RuleOptions} {table : BreakpointTable} {key className : String} {r : Rule}

theorem isPlaced_of_isInStates (hname : ClassName.IsWord className.toList)
    (hr : ofKey o key className = .ok r) {d : StyleKey.Decoded} {p : StyleProperty}
    (hgate : Location.known p.gate ≠ none ↔ Keys.IsOfShadow key)
    (h : IsInStates o.force className key d p r) : IsPlaced o key className r := by
  obtain ⟨hd, -, states, selectors, value, h⟩ := h
  have hgated := h.isGated_iff hname
  have htext : isGated r.text = isGated r.body := by
    rw [isGated_eq_occurs, isGated_eq_occurs, h.occurs_text hname]
  refine ⟨d, p, selectors, value, hd, selectorsOf_of_ofStates h.named h.made, h.body, ?_,
    htext ▸ hgated, ?_⟩
  · rw [htext, hgated, h.exists_notMem_bare_iff hname, hgate]
  · intro names t b component element entry hb hentry heffect hnames
    have hcorrect := BundleRules.ofTree_correct hb
    have hrule : Stylesheet.ruleOf o names key = .ok r := by rw [Stylesheet.ruleOf, hnames, hr]
    have hmem : r ∈ b.effects ↔ isGated r.body = true := by
      rw [hcorrect.effects]
      constructor
      · rintro ⟨-, -, -, -, -, -, -, hr⟩
        exact hr
      · exact fun hr => ⟨component, element, entry, key, hentry, hrule, heffect, hr⟩
    refine ⟨hmem.trans hgated, fun hnot => (hcorrect.core r).2 ?_⟩
    rw [hmem, Bool.not_eq_true] at hnot
    exact ⟨component, element, entry, key, hentry, hrule, .inr ⟨heffect, hnot⟩⟩

/-- The rules of shadows and border radii are placed by the states of their keys, whatever their
values and classes. -/
theorem isPlaced_of_effect (ho : o.queries = table.queries)
    (hkey : Keys.IsOfShadow key ∨ Keys.IsOfBorderRadius key)
    (hname : ClassName.IsWord className.toList) (hr : ofKey o key className = .ok r) :
    IsPlaced o key className r := by
  have hofKey := hr
  rcases hkey with hkey | hkey
  · obtain ⟨shadow, buckets, hshadow, hk⟩ := hkey
    rw [ofKey_shadow (Keys.startsWith_of_ofShadow hshadow hk)] at hr
    obtain ⟨d, hd⟩ := exists_isInStates_ofShadow hr
    refine isPlaced_of_isInStates hname hofKey (iff_of_true ?_ ⟨shadow, buckets, hshadow, hk⟩) hd
    decide
  · have hshadow := hkey.not_isOfShadow
    obtain ⟨radius, buckets, hradius, hk⟩ := hkey
    rw [ofKey_radius (Keys.startsWith_of_ofBorderRadius hradius hk)] at hr
    obtain ⟨d, hd⟩ := exists_isInStates_ofRadius ho hr
    refine isPlaced_of_isInStates hname hofKey (iff_of_false ?_ hshadow) hd
    decide

/-- A tree of a box whose border radius has one key. -/
def radiusTree (key : String) : KeyTree :=
  [("card", [("box", { effects := some [("hover", [key])] })])]

/-- A border radius under hovering is among the effects. -/
theorem isPlaced_hoverRadius :
    Keys.IsOfBorderRadius "borderRadius--hover__4"
    ∧ ∃ r b, ofKey { force := false } "borderRadius--hover__4" "a" = .ok r
      ∧ r.text = ".a:hover \x7b border-radius: 4px \x7d"
      ∧ IsPlaced { force := false } "borderRadius--hover__4" "a" r
      ∧ BundleRules.ofTree { force := false } [("borderRadius--hover__4", "a")]
        (radiusTree "borderRadius--hover__4") = .ok b
      ∧ r ∈ b.effects := by
  have hbuckets : (Keys.ofBorderRadius [("hover", .number 4)]).toOption
      = some [("hover", ["borderRadius--hover__4"])] := by decide +kernel
  obtain ⟨buckets, hbuckets, rfl⟩ := exists_of_toOption_map (f := id) (by simpa using hbuckets)
  have hkey : Keys.IsOfBorderRadius "borderRadius--hover__4" :=
    ⟨_, _, hbuckets, by decide⟩
  have hr : ((ofKey { force := false } "borderRadius--hover__4" "a").toOption.map fun r => r.text)
      = some ".a:hover \x7b border-radius: 4px \x7d" := by decide +kernel
  obtain ⟨r, hr, htext⟩ := exists_of_toOption_map hr
  have hb : (BundleRules.ofTree { force := false } [("borderRadius--hover__4", "a")]
      (radiusTree "borderRadius--hover__4")).toOption.isSome = true := by decide +kernel
  obtain ⟨b, hb⟩ := exists_of_isSome_toOption hb
  have hplaced : IsPlaced { force := false } "borderRadius--hover__4" "a" r :=
    isPlaced_of_effect rfl (.inr hkey) ⟨by decide, by simp⟩ hr
  obtain ⟨-, -, selectors, -, -, -, -, -, hgated, heffects⟩ := id hplaced
  have hmem := (heffects _ _ b "card" "box" _ hb List.mem_cons_self List.mem_cons_self
    (by decide)).1
  refine ⟨hkey, r, b, hr, htext, hplaced, hb, hmem.2 (hgated.1 ?_)⟩
  rw [htext]
  decide

end Rule
end AtomicCss

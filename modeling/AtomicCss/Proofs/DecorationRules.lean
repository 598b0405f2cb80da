import AtomicCss.Proofs.FontFamilies
import AtomicCss.Schema.Check

/-!
# The rules of decorations

Each decoration of a section has one key. All decorations but fonts are words of a table, and so
their keys have rules. The key of a font has none if the font has no family, or if a family holds
two underscores in a row, which are read as the mark before another value.
-/
namespace AtomicCss

namespace Rule

variable {o : RuleOptions}

theorem ofKey_decoration (p : DecorationProperty) {key : String}
    (h : key.startsWith p.name = true) (className : String) :
    ofKey o key className = ofDecoration p key className := by
  have hat : ∀ i, families = families.take i
      ++ ([p.name], fun _ => ofDecoration p) :: families.drop (i + 1) →
      (∀ f ∈ families.take i, ∀ s ∈ f.1, ¬Compatible p.name s) →
      ofKey o key className = ofDecoration p key className :=
    fun _ hfamilies hfront => ofKey_of_startsWith hfamilies List.mem_cons_self h hfront className
  cases p with
  | borderStyle => exact hat 0 rfl (by decide)
  | textAlign => exact hat 2 rfl (by decide)
  | textLineType => exact hat 3 rfl (by decide)
  | textItalic => exact hat 4 rfl (by decide)
  | textWeight => exact hat 5 rfl (by decide)
  | textFont => exact hat 6 rfl (by decide)

theorem exists_ofKey_word {p : DecorationProperty} {w : String} (hw : w ∈ p.words.map Prod.fst)
    (className : String) : ∃ css, ofKey o (p.name ++ ("__" ++ w)) className
      = .ok ⟨bodyOf (bare className) p.css css, none⟩ := by
  have htable : Text.occurs ['_', '_'] w.toList = false
      ∧ ∃ css, Dict.get? p.words w = some css := by
    have hall : ∀ w ∈ p.words.map Prod.fst, Text.occurs ['_', '_'] w.toList = false
        ∧ (Dict.get? p.words w).isSome = true := by
      cases p <;> decide
    exact (hall w hw).imp id Option.isSome_iff_exists.1
  obtain ⟨hsingle, css, hcss⟩ := htable
  have hp : p ≠ .textFont := by
    rintro rfl
    cases hw
  have hstart : (p.name ++ ("__" ++ w)).startsWith p.name = true := by
    rw [String.startsWith_string_iff, String.toList_append]
    exact List.prefix_append _ _
  refine ⟨css, ?_⟩
  rw [ofKey_decoration p hstart, ofDecoration, decorationValue_append, hsingle,
    if_neg Bool.false_ne_true]
  simp only [bind, Except.bind, decorationCss_eq_given hp, hcss]
  rfl

end Rule

namespace Decorations

def ifGiven {α : Type} (p : DecorationProperty) (f : α → Value) (a? : Option α) :
    List (DecorationProperty × Value) := (a?.map fun a => (p, f a)).toList

theorem mem_ifGiven {α : Type} {p : DecorationProperty} {f : α → Value} {a? : Option α}
    {m : DecorationProperty × Value} : m ∈ ifGiven p f a? ↔ ∃ a, a? = some a ∧ (p, f a) = m := by
  rw [ifGiven, Option.mem_toList, Option.map_eq_some_iff]

theorem optionalMember_eq {α : Type} (p : DecorationProperty) (f : α → Value) (a? : Option α) :
    optionalMember p.name f a? = (ifGiven p f a?).map fun m => (m.1.name, m.2) := by
  cases a? <;> rfl

def given (d : Decorations) : List (DecorationProperty × Value) :=
  ifGiven .textFont (fun fs => .list (fs.map .text)) d.textFont
    ++ ifGiven .textItalic .bool d.textItalic
    ++ ifGiven .textWeight (fun w => .text w.1) d.textWeight
    ++ ifGiven .textLineType (fun w => .text w.1) d.textLineType
    ++ ifGiven .textAlign (fun w => .text w.1) d.textAlign
    ++ ifGiven .borderStyle (fun w => .text w.1) d.borderStyle

def keyOf (m : DecorationProperty × Value) : String :=
  m.1.name ++ ("__" ++ StyleKey.valueText m.2)

theorem members_eq (d : Decorations) : d.members = d.given.map fun m => (m.1.name, m.2) := by
  simp only [members, given, List.map_append, optionalMember_eq]

theorem isDecoration_of_mem {d : Decorations} {m : DecorationProperty × Value} (hm : m ∈ d.given) :
    Keys.isDecoration m.2 = true := by
  simp only [given, List.mem_append, mem_ifGiven] at hm
  rcases hm with ((((⟨_, _, rfl⟩ | ⟨_, _, rfl⟩) | ⟨_, _, rfl⟩) | ⟨_, _, rfl⟩) | ⟨_, _, rfl⟩)
    | ⟨_, _, rfl⟩ <;> rfl

theorem isWritable_of_mem {d : Decorations} {m : DecorationProperty × Value} (hm : m ∈ d.given) :
    m.2.IsWritable := by
  simp only [given, List.mem_append, mem_ifGiven] at hm
  rcases hm with ((((⟨fonts, _, rfl⟩ | ⟨_, _, rfl⟩) | ⟨_, _, rfl⟩) | ⟨_, _, rfl⟩) | ⟨_, _, rfl⟩)
    | ⟨_, _, rfl⟩
  · rw [Value.isWritable_list, List.forall_mem_map]
    exact fun _ _ => List.forall_mem_nil _
  all_goals exact List.forall_mem_nil _

/-- Every decoration has its key. -/
theorem ofDecorations_members (d : Decorations) :
    Keys.ofDecorations d.members = .ok (d.given.map keyOf) := by
  have hall : (d.given.map fun m => (m.1.name, m.2)).filter
      (fun m : String × Value => Keys.isDecoration m.2)
        = d.given.map fun m => (m.1.name, m.2) := by
    rw [List.filter_eq_self]
    intro _ hm
    obtain ⟨m, hgiven, rfl⟩ := List.mem_map.1 hm
    exact isDecoration_of_mem hgiven
  rw [Keys.ofDecorations, members_eq, hall, mapM_map_ok, mapM_eq_ok, List.forall₂_map_right_iff,
    List.forall₂_same]
  intro m hm
  exact Keys.encode_eq_ok.2 ⟨rfl, isWritable_of_mem hm⟩

/-- Every key of the section has a rule for all widths, of the class alone, that declares the
decoration of the key. -/
def HasRules (d : Decorations) (o : RuleOptions) (className : String) : Prop :=
  ∃ keys, Keys.ofDecorations d.members = .ok keys
    ∧ List.Forall₂ (fun m key => ∃ css, Rule.ofKey o key className
        = .ok ⟨Rule.bodyOf (Rule.bare className) m.1.css css, none⟩) d.given keys

/-- The key of every decoration but the font has a rule. -/
theorem exists_ofKey_keyOf {d : Decorations} {m : DecorationProperty × Value} (hm : m ∈ d.given)
    (hfont : m.1 ≠ .textFont) (o : RuleOptions) (className : String) :
    ∃ css, Rule.ofKey o (keyOf m) className
      = .ok ⟨Rule.bodyOf (Rule.bare className) m.1.css css, none⟩ := by
  have hword : ∃ w ∈ m.1.words.map Prod.fst, StyleKey.valueText m.2 = w := by
    simp only [given, List.mem_append, mem_ifGiven] at hm
    rcases hm with ((((⟨_, _, rfl⟩ | ⟨b, _, rfl⟩) | ⟨w, _, rfl⟩) | ⟨w, _, rfl⟩) | ⟨w, _, rfl⟩)
      | ⟨w, _, rfl⟩
    · exact absurd rfl hfont
    · cases b
      · exact ⟨"false", by decide, rfl⟩
      · exact ⟨"true", by decide, rfl⟩
    all_goals exact ⟨w.1, w.2, rfl⟩
  obtain ⟨w, hw, hvalue⟩ := hword
  rw [keyOf, hvalue]
  exact Rule.exists_ofKey_word hw className

theorem hasRules_iff_forall {d : Decorations} {o : RuleOptions} {className : String} :
    d.HasRules o className ↔ ∀ m ∈ d.given, ∃ css, Rule.ofKey o (keyOf m) className
      = .ok ⟨Rule.bodyOf (Rule.bare className) m.1.css css, none⟩ := by
  simp only [HasRules, ofDecorations_members, Except.ok.injEq, exists_eq_left',
    List.forall₂_map_right_iff, List.forall₂_same]

/-- The key of a font has a rule iff there is a family and no family holds two underscores in a
row. -/
theorem exists_ofKey_textFont {names : List String} {o : RuleOptions} {className : String} :
    (∃ css, Rule.ofKey o (keyOf (.textFont, .list (names.map .text))) className
        = .ok ⟨Rule.bodyOf (Rule.bare className) DecorationProperty.textFont.css css, none⟩)
      ↔ names ≠ [] ∧ ∀ s ∈ names, Text.occurs ['_', '_'] s.toList = false := by
  have hkey : keyOf (.textFont, .list (names.map .text)) = Rule.familiesKey names := rfl
  have hstart : (Rule.familiesKey names).startsWith DecorationProperty.textFont.name = true := by
    rw [String.startsWith_string_iff, Rule.familiesKey, String.toList_append]
    exact List.prefix_append _ _
  have hallowed : (names ≠ [] ∧ ∀ s ∈ names, Text.occurs ['_', '_'] s.toList = false)
      ↔ ¬(names = [] ∨ ∃ s ∈ names, Text.occurs ['_', '_'] s.toList = true) := by simp
  rw [hkey, Rule.ofKey_decoration .textFont hstart, Rule.ofDecoration_familiesKey, hallowed]
  by_cases hrefused : names = [] ∨ ∃ s ∈ names, Text.occurs ['_', '_'] s.toList = true
  · rw [if_pos hrefused]
    exact iff_of_false (by simp) (not_not_intro hrefused)
  · rw [if_neg hrefused]
    exact iff_of_true ⟨_, rfl⟩ hrefused

/-- The keys of a section all have their rules iff its font has a family and no family holds two
underscores in a row. -/
theorem hasRules_iff (d : Decorations) (o : RuleOptions) (className : String) :
    d.HasRules o className ↔ ∀ names, d.textFont = some names →
      names ≠ [] ∧ ∀ s ∈ names, Text.occurs ['_', '_'] s.toList = false := by
  rw [hasRules_iff_forall]
  constructor
  · intro h names hnames
    have hmem : (DecorationProperty.textFont, Value.list (names.map .text)) ∈ d.given := by
      simp [given, mem_ifGiven, hnames]
    exact exists_ofKey_textFont.1 (h _ hmem)
  · rintro h ⟨p, value⟩ hm
    by_cases hp : p = .textFont
    · subst hp
      have hfont : ∃ names, d.textFont = some names ∧ Value.list (names.map .text) = value := by
        simpa [given, mem_ifGiven] using hm
      obtain ⟨names, hnames, rfl⟩ := hfont
      exact exists_ofKey_textFont.2 (h names hnames)
    · exact exists_ofKey_keyOf hm hp o className

/-- A section whose one family holds two underscores in a row. -/
def underscored : Document :=
  .map [(.text "textFont", .list [.scalar (.text "a__b")])]

/-- A section that passes its check, and whose key has no rule. -/
theorem not_hasRules_underscored : ∃ d, Check.decorations underscored = .valid d
    ∧ d.textFont = some ["a__b"] ∧ ¬d.HasRules { force := false } "a" := by
  refine ⟨⟨some ["a__b"], none, none, none, none, none⟩, rfl, rfl, fun h => ?_⟩
  have hkey := hasRules_iff_forall.1 h (.textFont, .list (["a__b"].map .text))
    (by simp [given, mem_ifGiven])
  have hsingle := (exists_ofKey_textFont.1 hkey).2 "a__b" List.mem_cons_self
  exact absurd hsingle (by decide)

end Decorations
end AtomicCss

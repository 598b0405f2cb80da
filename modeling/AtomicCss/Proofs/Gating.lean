import AtomicCss.Proofs.Families
import AtomicCss.Proofs.Sections
import Mathlib.Data.List.Chain

/-!
# Which rules apply without a state

Whether a rule needs a state is read off its text. A border radius of the scales has no state, and
neither its class nor its length looks like one, so the rule counts as stateless also where the same
key stands among the effects.
-/
namespace AtomicCss

namespace Rule

/-- Characters that may stand side by side where no state is meant. -/
def Calm (c d : Char) : Prop := (c = ':' → d = ' ') ∧ (c = '.' → d ≠ '-')

/-- A text in which no pseudo-class and no forcing class begins. -/
def IsCalm (cs : List Char) : Prop := cs.IsChain Calm

theorem isCalm_of_forall {cs : List Char} (h : ∀ c ∈ cs, ∀ d ∈ cs, Calm c d) : IsCalm cs :=
  (List.pairwise_of_forall_mem_list h).isChain

theorem isCalm_of_notMem {cs : List Char} (hcolon : ':' ∉ cs) (hpoint : '.' ∉ cs) :
    IsCalm cs :=
  isCalm_of_forall fun _ hc _ _ =>
    ⟨fun h => absurd (h ▸ hc) hcolon, fun h => absurd (h ▸ hc) hpoint⟩

theorem isCalm_of_noDash {cs : List Char} (hcolon : ':' ∉ cs) (hdash : '-' ∉ cs) :
    IsCalm cs :=
  isCalm_of_forall fun _ hc _ hd => ⟨fun h => absurd (h ▸ hc) hcolon, fun _ h => hdash (h ▸ hd)⟩

theorem IsCalm.append {cs ds : List Char} (hc : IsCalm cs) (hd : IsCalm ds)
    (hjoin : ∀ c ∈ cs.getLast?, ∀ d ∈ ds.head?, Calm c d) : IsCalm (cs ++ ds) :=
  List.isChain_append.2 ⟨hc, hd, hjoin⟩

theorem calm_of_hasWord {c : Char} {word cs : List Char} (h : hasWord (':' :: c :: word) cs = true)
    (hcs : IsCalm cs) : c = ' ' := by
  induction cs with
  | nil => cases h
  | cons d cs ih =>
    rw [hasWord, Bool.or_eq_true] at h
    rcases h with h | h
    · split at h
      · next rest hrest =>
        rw [Text.after?_eq_some] at hrest
        rw [hrest] at hcs
        exact (List.isChain_cons_cons.1 hcs).1.1 rfl
      · cases h
    · exact ih h hcs.of_cons

theorem hasForcedClass_of_isCalm {cs : List Char} (hcs : IsCalm cs) :
    hasForcedClass cs = false := by
  induction cs with
  | nil => rfl
  | cons c cs ih =>
    rw [hasForcedClass, ih hcs.of_cons, Bool.or_false]
    split
    · next heq =>
      rw [heq] at hcs
      exact absurd rfl ((List.isChain_cons_cons.1 hcs).1.2 rfl)
    · rfl

theorem isGated_of_isCalm {body : String} (h : IsCalm body.toList) : isGated body = false := by
  have hpseudo : hasPseudo ["hover", "focus", "active", "disabled", "read-only"] body = false := by
    rw [Bool.eq_false_iff, hasPseudo, Ne, List.any_eq_true]
    rintro ⟨name, hname, hword⟩
    simp only [List.mem_cons, List.not_mem_nil, or_false] at hname
    rcases hname with rfl | rfl | rfl | rfl | rfl <;>
      exact absurd (calm_of_hasWord hword h) (by decide)
  rw [isGated, hpseudo, hasForcedClass_of_isCalm h, Bool.false_or]

end Rule

/-- A calm text without a colon, such as that of a number. -/
structure IsQuiet (cs : List Char) : Prop where
  colon : ':' ∉ cs
  calm : Rule.IsCalm cs

namespace IsQuiet

theorem of_noPoint {cs : List Char} (hcolon : ':' ∉ cs) (hpoint : '.' ∉ cs) : IsQuiet cs :=
  ⟨hcolon, Rule.isCalm_of_notMem hcolon hpoint⟩

theorem of_noDash {cs : List Char} (hcolon : ':' ∉ cs) (hdash : '-' ∉ cs) : IsQuiet cs :=
  ⟨hcolon, Rule.isCalm_of_noDash hcolon hdash⟩

/-- Quiet texts may follow each other unless a point and a dash meet. -/
theorem append {cs ds : List Char} (hc : IsQuiet cs) (hd : IsQuiet ds)
    (hjoin : '.' ∉ cs.getLast? ∨ '-' ∉ ds.head?) : IsQuiet (cs ++ ds) where
  colon := by simp [hc.colon, hd.colon]
  calm := by
    refine hc.calm.append hd.calm fun c hlast d hhead => ⟨fun h => ?_, fun h => ?_⟩
    · exact absurd (h ▸ List.mem_of_getLast? hlast) hc.colon
    · rintro rfl
      rcases hjoin with hjoin | hjoin
      · exact hjoin (h ▸ hlast)
      · exact hjoin hhead

end IsQuiet

namespace Decimal

theorem notMem_digits {n : Nat} {c : Char} (h : c.isDigit = false) : c ∉ (digits n).toList := by
  intro hm
  rw [digits, Nat.toList_repr] at hm
  rw [Nat.isDigit_of_mem_toDigits (by decide) (by decide) hm] at h
  cases h

theorem notMem_zeros {n : Nat} {c : Char} (h : c ≠ '0') : c ∉ (zeros n).toList := by
  rw [zeros, String.toList_ofList]
  exact fun hm => h (List.eq_of_mem_replicate hm)

theorem isQuiet_exponentText (e : Int) : IsQuiet (exponentText e).toList := by
  have hnot : ∀ c : Char, c.isDigit = false → c ≠ '-' → c ≠ '+' → c ∉ (exponentText e).toList := by
    intro c hc hdash hplus
    have hzero : c ≠ '0' := by
      rintro rfl
      cases hc
    rw [exponentText]
    split <;> split <;> simp [notMem_digits hc, hdash, hplus, hzero]
  exact .of_noPoint (hnot ':' (by decide) (by decide) (by decide))
    (hnot '.' (by decide) (by decide) (by decide))

theorem isQuiet_layout (d : Scientific) : IsQuiet (Notation.program.layout d).toList := by
  -- Apart from the sign of the exponent there are only digits, points and the exponent's mark.
  have hnot : ∀ c : Char, c = ':' ∨ c = '-' → c.isDigit = false ∧ c ≠ '0' ∧ c ≠ '.' := by
    rintro c (rfl | rfl) <;> decide
  have htake : ∀ (c : Char) (n : Nat), c = ':' ∨ c = '-' →
      c ∉ (digits d.coefficient).toList.take n ∧ c ∉ (digits d.coefficient).toList.drop n :=
    fun c n hc => ⟨fun h => notMem_digits (hnot c hc).1 (List.mem_of_mem_take h),
      fun h => notMem_digits (hnot c hc).1 (List.mem_of_mem_drop h)⟩
  have hplain : ∀ text : String, (∀ c, c = ':' ∨ c = '-' → c ∉ text.toList) →
      IsQuiet text.toList := fun text h => .of_noDash (h ':' (.inl rfl)) (h '-' (.inr rfl))
  rw [Notation.layout]
  split
  · split
    · refine hplain _ fun c hc => ?_
      obtain ⟨hdigit, hzero, hpoint⟩ := hnot c hc
      simp [notMem_digits hdigit, notMem_zeros hzero, hpoint, hzero]
    · split
      · refine hplain _ fun c hc => ?_
        simp [(htake c _ hc).1, (htake c _ hc).2, (hnot c hc).2.2]
      · refine hplain _ fun c hc => ?_
        obtain ⟨hdigit, hzero, hpoint⟩ := hnot c hc
        simp [notMem_digits hdigit, notMem_zeros hzero, hpoint, hzero]
  · have hfront : ∀ text : String, (∀ c, c = ':' ∨ c = '-' → c ∉ text.toList) →
        IsQuiet (text ++ "e" ++ exponentText (d.exponent + (digits d.coefficient).length - 1)
          ).toList := by
      intro text h
      rw [String.toList_append, String.toList_append]
      refine (IsQuiet.of_noDash ?_ ?_).append (isQuiet_exponentText _) (.inl (by simp))
      · simp [h ':' (.inl rfl)]
      · simp [h '-' (.inr rfl)]
    refine hfront _ fun c hc => ?_
    have htail := (htake c 1 hc).2
    rw [List.drop_one] at htail
    split
    · simp [Notation.program, (htake c _ hc).1]
    · simp [(htake c _ hc).1, htail, (hnot c hc).2.2]

theorem isQuiet_text (x : Float) : IsQuiet (Notation.program.text x).toList := by
  have hsign : ∀ (b : Bool) (text : String), IsQuiet text.toList →
      IsQuiet ((if b then "-" else "") ++ text).toList := by
    intro b text h
    rw [String.toList_append]
    cases b with
    | false => simpa using h
    | true => exact IsQuiet.append (.of_noPoint (by decide) (by decide)) h (.inl (by decide))
  rw [Notation.text]
  split
  · exact .of_noPoint (by decide) (by decide)
  · exact hsign _ _ (.of_noPoint (by decide) (by decide))
  · refine hsign _ _ ?_
    split
    · exact .of_noDash (by decide) (by decide)
    · exact isQuiet_layout _

end Decimal

theorem Number.isQuiet_text (n : Number) : IsQuiet n.text.toList := by
  cases n with
  | int n =>
    rw [Number.text, Number.intText]
    split
    · refine .of_noPoint ?_ ?_ <;> simp [Decimal.notMem_digits]
    · exact .of_noPoint (Decimal.notMem_digits (by decide)) (Decimal.notMem_digits (by decide))
  | float x => exact Decimal.isQuiet_text x

namespace Rule

theorem isQuiet_pixels (x : Float) : IsQuiet (pixels x).toList := by
  rw [pixels, Length.px]
  split
  · exact .of_noPoint (by decide) (by decide)
  · rw [String.toList_append]
    exact (Number.isQuiet_text _).append (.of_noPoint (by decide) (by decide)) (.inr (by decide))

/-- The rule of a length on a bare class needs no state. -/
theorem isGated_bare {className : String} (hname : ClassName.IsWord className.toList)
    {property : String} (hproperty : ':' ∉ property.toList ∧ '.' ∉ property.toList) {value : String}
    (hvalue : IsQuiet value.toList) :
    isGated (bodyOf (bare className) property value) = false := by
  have hletter : ∀ c ∈ className.toList, c ≠ ':' ∧ c ≠ '.' ∧ c ≠ '-' := by
    intro c hc
    refine ⟨?_, ?_, ?_⟩ <;> rintro rfl <;> exact absurd (hname.2 _ hc) (by decide)
  have hclass : IsQuiet ('.' :: className.toList) :=
    .of_noDash (by simpa using fun h => (hletter _ h).1 rfl)
      (by simpa using fun h => (hletter _ h).2.2 rfl)
  have hlast : '.' ∉ ('.' :: className.toList).getLast? := by
    rw [List.getLast?_cons_of_ne_nil hname.1]
    exact fun h => (hletter _ (List.mem_of_getLast? h)).2.1 rfl
  have hfront : IsQuiet ('.' :: className.toList ++ (" \x7b ".toList ++ property.toList)) :=
    hclass.append (.of_noPoint (by simp [hproperty.1]) (by simp [hproperty.2])) (.inl hlast)
  have hback : IsQuiet (value.toList ++ " \x7d".toList) :=
    hvalue.append (.of_noPoint (by decide) (by decide)) (.inr (by decide))
  have hcolon : IsCalm [':', ' '] :=
    List.isChain_cons_cons.2 ⟨⟨fun _ => rfl, by decide⟩, List.isChain_singleton _⟩
  have hbody : (bodyOf (bare className) property value).toList
      = '.' :: className.toList ++ (" \x7b ".toList ++ property.toList)
        ++ ([':', ' '] ++ (value.toList ++ " \x7d".toList)) := by
    simp [bodyOf, bare, Selector.text, Compound.text, SimpleSelector.text]
  refine isGated_of_isCalm ?_
  rw [hbody]
  refine hfront.calm.append (hcolon.append hback.calm ?_) ?_
  · intro c hc d _
    obtain rfl : ' ' = c := by simpa using hc
    exact ⟨fun h => absurd h (by decide), fun h => absurd h (by decide)⟩
  · rintro c hc _ ⟨rfl⟩
    exact ⟨fun h => absurd (h ▸ List.mem_of_getLast? hc) hfront.colon, fun _ => by decide⟩

/-- A key of a stateless value is read back without a state. -/
theorem decode_of_encode_stateless {property : String} (hproperty : StyleKey.IsPlain property)
    {value : Value} {size breakpoint : Option String} {key : String}
    (h : StyleKey.encode { property, value, size, breakpoint } = .ok key) {k : StyleKey.Decoded}
    (hk : StyleKey.decode key = .ok k) :
    k.property = property ∧ k.isRef = false ∧ k.stateTokens = [] := by
  by_cases hsize : Location.known size = none
  · have hkey : key = property ++ ("__" ++ StyleKey.valueText value) := by
      have hencode := StyleKey.encode_stateless property value
      simp only [StyleKey.encode, hsize] at h hencode
      exact Except.ok.inj (h.symm.trans hencode)
    rw [hkey, StyleKey.decode_stateless hproperty] at hk
    cases hk
    exact ⟨rfl, rfl, rfl⟩
  · obtain ⟨s, hs⟩ := Option.ne_none_iff_exists'.1 hsize
    obtain ⟨rfl, hne⟩ := Option.filter_eq_some_iff.1 hs
    rw [StyleKey.encode_sized property value (by simpa using hne)] at h
    have hkey : ∃ rest, key = property ++ ("++" ++ rest) := by
      rw [← Except.ok.inj h, StyleKey.sizePart]
      split
      · exact ⟨_, by simp only [String.append_assoc]; rfl⟩
      · exact ⟨_, by simp only [String.append_assoc]; rfl⟩
    obtain ⟨rest, rfl⟩ := hkey
    rw [StyleKey.decode_sized hproperty] at hk
    split at hk
    · cases hk
    · cases hk
      exact ⟨rfl, rfl, rfl⟩

/-- The rule of a border radius of the scales needs no state. -/
theorem isGated_radius {o : RuleOptions} {className : String}
    (hname : ClassName.IsWord className.toList) {value : Value}
    {size breakpoint : Option String} {key : String} {r : Rule}
    (h : StyleKey.encode { property := ScaleProperty.borderRadius.name, value, size, breakpoint }
      = .ok key) (hr : ofKey o key className = .ok r) : isGated r.body = false := by
  rw [ofKey_radius (StyleKey.startsWith_of_encode h)] at hr
  obtain ⟨k, x, states, selectors, hk, -, -, hstates, hs, -, hbody⟩ := ofRadius_ok hr
  obtain ⟨-, href, htokens⟩ := decode_of_encode_stateless (by decide) h hk
  rw [htokens] at hstates
  cases hstates
  rw [href] at hs
  cases hs
  rw [hbody]
  exact isGated_bare hname (by decide) (isQuiet_pixels x)

end Rule

/-- A key of the decorations or scales that also stands among effects has a stateless rule. -/
theorem Entry.isGated_of_hasPlain {o : RuleOptions} {e e' : Element} {entry entry' : Entry}
    {section? section?' : Option Keys.PaletteSection} (h : Compiled.SectionsOf e entry section?)
    (h' : Compiled.SectionsOf e' entry' section?') {key : String} (hplain : entry.HasPlain key)
    (heffect : entry'.HasEffect key) {className : String}
    (hname : ClassName.IsWord className.toList) {r : Rule}
    (hr : Rule.ofKey o key className = .ok r) : Rule.isGated r.body = false := by
  have heffect := startsWith_of_effect h' heffect
  rcases hplain with hk | hk
  · obtain ⟨p, hp⟩ := startsWith_of_decoration h hk
    have hno : ∀ p : DecorationProperty, ¬Rule.Compatible p.name "shadow"
        ∧ ¬Rule.Compatible p.name ScaleProperty.borderRadius.name := by
      intro p
      cases p <;> decide
    rcases heffect with heffect | heffect
    · exact absurd (Rule.compatible_of_startsWith hp heffect) (hno p).1
    · exact absurd (Rule.compatible_of_startsWith hp heffect) (hno p).2
  · obtain ⟨scales, p, scale, keys, label, -, -, hkeys, hk⟩ := (mem_scaleKeys h).1 hk
    obtain ⟨value, size, breakpoint, he⟩ := Keys.isKeyOf_responsive hkeys hk
    have hp := StyleKey.startsWith_of_encode he
    have hno : ∀ p : ScaleProperty, ¬Rule.Compatible p.name "shadow"
        ∧ (Rule.Compatible p.name ScaleProperty.borderRadius.name → p = .borderRadius) := by
      intro p
      cases p <;> decide
    rcases heffect with heffect | heffect
    · exact absurd (Rule.compatible_of_startsWith hp heffect) (hno p).1
    · rw [(hno p).2 (Rule.compatible_of_startsWith hp heffect)] at he
      exact Rule.isGated_radius hname he hr

/-- A key of decorations or scales whose rule stands among the effects would have a rule that needs
a state and one that needs none. -/
theorem BundleRules.Correct.notMem_effects {places : List (String × String × Element)}
    {c : Compiled} (hc : c.Faithful places) {o : RuleOptions} {r : BundleRules}
    (hr : r.Correct o (Usage.classNames c.tree) c.tree) {component element : String}
    {entry : Entry} (he : (component, element, entry) ∈ c.tree.entries) {key : String}
    (hk : entry.HasPlain key) {rule : Rule}
    (hrule : Stylesheet.ruleOf o (Usage.classNames c.tree) key = .ok rule) :
    rule ∉ r.effects := by
  intro hmem
  have hclass : ∀ key ∈ c.tree.keys, ∀ rule,
      Stylesheet.ruleOf o (Usage.classNames c.tree) key = .ok rule →
        Rule.styledClass rule.body = ClassName.of (Usage.classNames c.tree) key :=
    fun key hk _ h => (Rule.isOn_ofKey h).styledClass (Usage.isWord_classNames hk)
  obtain ⟨component', element', entry', key', he', hrule', hk', hgated⟩ := (hr.effects rule).1 hmem
  have hkeys := KeyTree.mem_keys_of_mem he hk.mem_keys
  have hkeys' := KeyTree.mem_keys_of_mem he' hk'.mem_keys
  obtain rfl := Usage.classNames_inj hkeys hkeys'
    ((hclass key hkeys rule hrule).symm.trans (hclass key' hkeys' rule hrule'))
  obtain ⟨_, _, h⟩ := hc.exists_sectionsOf he
  obtain ⟨_, _, h'⟩ := hc.exists_sectionsOf he'
  have hstateless := Entry.isGated_of_hasPlain h h' hk hk' (Usage.isWord_classNames hkeys) hrule
  exact absurd (hgated.symm.trans hstateless) (by decide)

end AtomicCss

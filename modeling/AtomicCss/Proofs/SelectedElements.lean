import AtomicCss.Proofs.KeyReading
import AtomicCss.Proofs.SelectorReading

/-!
# The elements that selectors match

An element of a page has classes, is in some pseudo-classes, and stands within other elements. The
selectors of a class under states, as CSS reads them, match just the elements of the class for which
the states hold: of the element itself, or for a reference of one it stands within. A reference is
refused exactly if its states give nothing to match by.

Main definitions: `Page.Place.Matches`, what CSS takes a selector to match, and
`Selector.MatchesInStates`, that selectors match in the states they are for and no others.
-/
namespace AtomicCss

namespace Page

/-- What selectors can ask of an element of a page. -/
structure Marks where
  classes : List String
  pseudoClasses : List String

/-- An element of a page, with those it stands within, nearest first. -/
structure Place where
  node : Marks
  ancestors : List Marks

end Page

open Page

/-- Whether an element meets a condition. -/
def SimpleSelector.Holds (n : Marks) : SimpleSelector → Prop
  | ofClass name => name ∈ n.classes
  | pseudo name => name ∈ n.pseudoClasses

/-- Whether an element meets all conditions. -/
def Compound.Holds (n : Marks) (c : Compound) : Prop := ∀ s ∈ c, s.Holds n

/-- Whether some elements, nearest first, meet the conditions of the outer parts of a selector one
after the other. -/
def Compound.Within : List Compound → List Marks → Prop
  | [], _ => True
  | _ :: _, [] => False
  | c :: outer, n :: nodes => (c.Holds n ∧ Within outer nodes) ∨ Within (c :: outer) nodes

/-- Whether an element is one that a selector, given by its parts, is about. -/
def Page.Place.Matches (p : Place) (parts : List Compound) : Prop :=
  match parts.reverse with
  | [] => False
  | subject :: outer => subject.Holds p.node ∧ Compound.Within outer p.ancestors

namespace Compound

variable {n : Marks} {c d : Compound}

theorem holds_append : (c ++ d).Holds n ↔ c.Holds n ∧ d.Holds n := List.forall_mem_append

theorem holds_cons {s : SimpleSelector} : Holds n (s :: c) ↔ s.Holds n ∧ c.Holds n :=
  List.forall_mem_cons

theorem holds_nil : Holds n [] := List.forall_mem_nil _

/-- A single outer part asks for one of the elements around. -/
theorem within_singleton {nodes : List Marks} : Within [c] nodes ↔ ∃ n ∈ nodes, c.Holds n := by
  induction nodes with
  | nil => simp [Within]
  | cons n nodes ih => simp [Within, ih]

end Compound

namespace Page.Place

variable {p : Place} {element : Compound}

theorem matches_inline : p.Matches (Selector.parts ⟨none, element⟩) ↔ element.Holds p.node := by
  simp [Matches, Selector.parts, Compound.Within]

theorem matches_below {a : Compound} : p.Matches (Selector.parts ⟨some a, element⟩)
    ↔ element.Holds p.node ∧ ∃ n ∈ p.ancestors, a.Holds n := by
  simp [Matches, Selector.parts, Compound.within_singleton]

end Page.Place

namespace ActiveState

variable {states : List ActiveState} {force : Bool} {n : Marks}

/-- Whether a state holds of an element by itself: by its pseudo-class, or by its class if it has no
pseudo-class. -/
def Holds (n : Marks) (s : ActiveState) : Prop :=
  match s.pseudo? with
  | some name => name ∈ n.pseudoClasses
  | none => s.forcedClass ∈ n.classes

/-- Whether states can hold by themselves: one of them has a pseudo-class. -/
def HaveNative (states : List ActiveState) : Prop := ∃ s ∈ states, s.pseudo? ≠ none

/-- Whether states are forced as well. -/
def AreForced (force : Bool) (states : List ActiveState) : Prop :=
  force = true ∨ disabled ∈ states

/-- Whether nothing tells where states hold. -/
def AreLacking (force : Bool) (states : List ActiveState) : Prop :=
  ¬HaveNative states ∧ ¬AreForced force states ∨ states = []

/-- Whether states hold of an element by themselves. -/
def HoldNatively (states : List ActiveState) (n : Marks) : Prop :=
  HaveNative states ∧ ∀ s ∈ states, s.Holds n

/-- Whether states hold of an element by force. -/
def HoldByForce (force : Bool) (states : List ActiveState) (n : Marks) : Prop :=
  AreForced force states ∧ (∀ s ∈ states, s.forcedClass ∈ n.classes) ∧ "-a" ∈ n.classes

theorem holds_nativeConditions :
    (Selector.nativeConditions states).Holds n ↔ ∀ s ∈ states, s.Holds n := by
  simp only [Compound.Holds, Selector.mem_nativeConditions]
  constructor
  · intro h s hs
    rw [Holds]
    cases hname : s.pseudo? with
    | none => exact h (.ofClass s.forcedClass) (.inr ⟨s, hs, hname, rfl⟩)
    | some name => exact h (.pseudo name) (.inl ⟨s, hs, name, hname, rfl⟩)
  · rintro h _ (⟨s, hs, name, hname, rfl⟩ | ⟨s, hs, hname, rfl⟩)
    · exact (by simpa only [Holds, hname] using h s hs : name ∈ n.pseudoClasses)
    · exact (by simpa only [Holds, hname] using h s hs : s.forcedClass ∈ n.classes)

theorem holds_forcedConditions :
    (Selector.forcedConditions states).Holds n ↔ ∀ s ∈ states, s.forcedClass ∈ n.classes := by
  simp only [Compound.Holds, Selector.mem_forcedConditions]
  constructor
  · exact fun h s hs => h (.ofClass s.forcedClass) ⟨s, hs, rfl⟩
  · rintro h _ ⟨s, hs, rfl⟩
    exact h s hs

end ActiveState

namespace Selector

open ActiveState

variable {className : String} {gate : Option String} {isRef force : Bool}
  {states : List ActiveState} {selectors : List Selector} {p : Place}

/-- The element a rule is about has its class, and its gate if there is one. -/
def Carries (className : String) (gate : Option String) (n : Marks) : Prop :=
  className ∈ n.classes ∧ ∀ g, Location.known gate = some g → g ∈ n.classes

/-- Whether something holds of the element itself, or for a reference of one around it that has the
activator class. -/
def OfSubject (isRef : Bool) (holds : Marks → Prop) (p : Place) : Prop :=
  if isRef then ∃ n ∈ p.ancestors, "-a" ∈ n.classes ∧ holds n else holds p.node

/-- The elements that the rule of a class under states is meant for. Without states that tell where
they hold, an inline rule is for all elements of the class. -/
def IsMeantFor (className : String) (gate : Option String) (isRef force : Bool)
    (states : List ActiveState) (p : Place) : Prop :=
  Carries className gate p.node ∧
    ((isRef = false ∧ AreLacking force states)
      ∨ OfSubject isRef (fun n => HoldNatively states n ∨ HoldByForce force states n) p)

/-- The selectors of a class under states, as CSS reads them, match just the elements that are
meant. There are none exactly for a reference that lacks states, which is reported as a malformed
style key. -/
structure MatchesInStates (className : String) (gate : Option String) (isRef force : Bool)
    (states : List ActiveState) : Prop where
  refused_iff : (∃ e, ofStates className gate isRef force states = .error e)
    ↔ isRef = true ∧ AreLacking force states
  report : ∀ e, ofStates className gate isRef force states = .error e →
    e.kind? = some .styleKeyFormat
  matched : ∀ selectors, ofStates className gate isRef force states = .ok selectors →
    ∃ read, SelectorList.read? (", ".intercalate (selectors.map text)) = some read
      ∧ ∀ p : Place, (∃ parts ∈ read, p.Matches parts)
        ↔ IsMeantFor className gate isRef force states p

theorem native?_eq_none_iff (t : Compound) :
    native? t isRef states = none ↔ ¬HaveNative states := by
  simp [native?_eq_none, HaveNative]

theorem forced?_eq_none_iff (t : Compound) :
    forced? t isRef force states = none ↔ ¬(states ≠ [] ∧ AreForced force states) :=
  forced?_eq_none t isRef force

/-- There is neither form exactly if states are lacking. -/
theorem areLacking_iff (isRef force : Bool) (states : List ActiveState) (t : Compound) :
    AreLacking force states
      ↔ native? t isRef states = none ∧ forced? t isRef force states = none := by
  rw [native?_eq_none_iff, forced?_eq_none_iff, AreLacking]
  constructor
  · rintro (⟨hnative, hforced⟩ | rfl)
    · exact ⟨hnative, fun h => hforced h.2⟩
    · exact ⟨by simp [HaveNative], fun h => h.1 rfl⟩
  · rintro ⟨hnative, hforced⟩
    by_cases hnil : states = []
    · exact .inr hnil
    · exact .inl ⟨hnative, fun h => hforced ⟨hnil, h⟩⟩

theorem ofStates_eq_error {e : RuleError} :
    ofStates className gate isRef force states = .error e
      ↔ e = .refWithoutState ∧ isRef = true ∧ AreLacking force states := by
  rw [areLacking_iff isRef force states (target className gate)]
  simp only [ofStates]
  cases native? (target className gate) isRef states <;>
    cases forced? (target className gate) isRef force states <;> cases isRef <;> simp [eq_comm]

theorem holds_activator {n : Marks} : activator.Holds n ↔ "-a" ∈ n.classes := Iff.rfl

theorem holds_target {n : Marks} :
    (target className gate).Holds n ↔ Carries className gate n := by
  cases hgate : Location.known gate <;>
    simp [target, Compound.Holds, Carries, SimpleSelector.Holds, hgate]

theorem ofSubject_or {P Q : Marks → Prop} :
    OfSubject isRef (fun n => P n ∨ Q n) p ↔ OfSubject isRef P p ∨ OfSubject isRef Q p := by
  cases isRef <;> simp [OfSubject, and_or_left, exists_or]

/-- The native form matches where the states hold by themselves. -/
theorem exists_native_iff :
    (∃ s, native? (target className gate) isRef states = some s ∧ p.Matches s.parts)
      ↔ Carries className gate p.node ∧ OfSubject isRef (HoldNatively states) p := by
  cases hs : native? (target className gate) isRef states with
  | none =>
    have hnot := (native?_eq_none_iff _).1 hs
    cases isRef <;> simp [OfSubject, HoldNatively, hnot]
  | some s =>
    have hhave : HaveNative states := by
      by_contra hnot
      rw [(native?_eq_none_iff _).2 hnot] at hs
      cases hs
    rw [native?] at hs
    split at hs
    · obtain rfl := Option.some.inj hs
      cases isRef with
      | true =>
        simp [OfSubject, HoldNatively, hhave, Place.matches_below, Compound.holds_cons,
          holds_activator, holds_target, holds_nativeConditions]
      | false =>
        simp [OfSubject, HoldNatively, hhave, Place.matches_inline, Compound.holds_append,
          holds_target, holds_nativeConditions]
    · cases hs

theorem exists_forced_iff (hne : states ≠ []) :
    (∃ s, forced? (target className gate) isRef force states = some s ∧ p.Matches s.parts)
      ↔ Carries className gate p.node ∧ OfSubject isRef (HoldByForce force states) p := by
  cases hs : forced? (target className gate) isRef force states with
  | none =>
    have hnot : ¬AreForced force states :=
      fun hforced => (forced?_eq_none_iff _).1 hs ⟨hne, hforced⟩
    cases isRef <;> simp [OfSubject, HoldByForce, hnot]
  | some s =>
    have hhave : AreForced force states := by
      by_contra hnot
      rw [(forced?_eq_none_iff _).2 fun h => hnot h.2] at hs
      cases hs
    rw [forced?] at hs
    split at hs
    · obtain rfl := Option.some.inj hs
      cases isRef with
      | true =>
        simp [OfSubject, HoldByForce, hhave, Place.matches_below, Compound.holds_cons,
          holds_activator, holds_target, holds_forcedConditions]
        tauto
      | false =>
        simp [OfSubject, HoldByForce, hhave, Place.matches_inline, Compound.holds_append,
          Compound.holds_cons, Compound.holds_nil, holds_activator, holds_target,
          holds_forcedConditions]
    · cases hs

/-- Some selector matches an element exactly if the element is meant. -/
theorem exists_matches_iff (h : ofStates className gate isRef force states = .ok selectors) :
    (∃ s ∈ selectors, p.Matches s.parts) ↔ IsMeantFor className gate isRef force states p := by
  have hforms := areLacking_iff isRef force states (target className gate)
  simp only [mem_ofStates h]
  by_cases hlack : AreLacking force states
  · obtain ⟨hnative, hforced⟩ := hforms.1 hlack
    obtain rfl : isRef = false := by
      by_contra hne
      rw [ofStates_eq_error.2 ⟨rfl, by simpa using hne, hlack⟩] at h
      cases h
    simp [hnative, hforced, IsMeantFor, hlack, Place.matches_inline, holds_target]
  · have hne : states ≠ [] := fun hnil => hlack (.inr hnil)
    calc (∃ s, (native? (target className gate) isRef states = some s
            ∨ forced? (target className gate) isRef force states = some s
            ∨ _) ∧ p.Matches s.parts)
        ↔ (∃ s, native? (target className gate) isRef states = some s ∧ p.Matches s.parts)
          ∨ ∃ s, forced? (target className gate) isRef force states = some s
            ∧ p.Matches s.parts := by
          simp only [or_and_right, exists_or]
          refine or_congr_right (or_iff_left ?_)
          rintro ⟨_, ⟨hnative, hforced, -⟩, -⟩
          exact hlack (hforms.2 ⟨hnative, hforced⟩)
      _ ↔ Carries className gate p.node
          ∧ (OfSubject isRef (HoldNatively states) p
            ∨ OfSubject isRef (HoldByForce force states) p) := by
          rw [exists_native_iff, exists_forced_iff hne, and_or_left]
      _ ↔ IsMeantFor className gate isRef force states p := by
          simp only [IsMeantFor, hlack, and_false, false_or, ofSubject_or]

section Readable

variable (hname : ClassName.IsWord className.toList)
  (hgate : ∀ g, Location.known gate = some g → SelectorList.isName g.toList = true)

theorem isNamed_native {c : SimpleSelector} (h : c ∈ nativeConditions states) : c.IsNamed := by
  rcases mem_nativeConditions.1 h with ⟨s, -, name, hs, rfl⟩ | ⟨s, -, -, rfl⟩
  · cases s <;> cases hs <;> decide
  · cases s <;> decide

theorem isNamed_forced {c : SimpleSelector} (h : c ∈ forcedConditions states) : c.IsNamed := by
  obtain ⟨s, -, rfl⟩ := mem_forcedConditions.1 h
  cases s <;> decide

theorem isNamed_activator : activator.IsNamed := by decide

include hname hgate

theorem isNamed_target {c : SimpleSelector} (h : c ∈ target className gate) : c.IsNamed := by
  rcases mem_target.1 h with rfl | ⟨g, hg, rfl⟩
  · exact SelectorList.isName_of_isWord hname
  · exact hgate g hg

theorem isReadable_inline {conditions : Compound} (h : ∀ c ∈ conditions, c.IsNamed) :
    SelectorList.IsReadable ⟨none, target className gate ++ conditions⟩ := by
  intro c hc
  obtain rfl : c = target className gate ++ conditions := by simpa [parts] using hc
  refine ⟨by simp [target], fun t ht => ?_⟩
  exact (List.mem_append.1 ht).elim (isNamed_target hname hgate) (h t)

theorem isReadable_below {conditions : Compound} (h : ∀ c ∈ conditions, c.IsNamed) :
    SelectorList.IsReadable ⟨some (activator :: conditions), target className gate⟩ := by
  intro c hc
  have hparts : c = activator :: conditions ∨ c = target className gate := by
    simpa [parts] using hc
  rcases hparts with rfl | rfl
  · refine ⟨List.cons_ne_nil _ _, fun t ht => ?_⟩
    rcases List.mem_cons.1 ht with rfl | ht
    · exact isNamed_activator
    · exact h t ht
  · exact ⟨by simp [target], fun t => isNamed_target hname hgate⟩

theorem isReadable_of_ofStates (h : ofStates className gate isRef force states = .ok selectors) :
    ∀ s ∈ selectors, SelectorList.IsReadable s := by
  intro s hs
  rcases (mem_ofStates h).1 hs with hs | hs | ⟨-, -, rfl⟩
  · rw [native?] at hs
    split at hs
    · obtain rfl := Option.some.inj hs
      cases isRef with
      | true => exact isReadable_below hname hgate fun c => isNamed_native
      | false => exact isReadable_inline hname hgate fun c => isNamed_native
    · cases hs
  · rw [forced?] at hs
    split at hs
    · obtain rfl := Option.some.inj hs
      cases isRef with
      | true => exact isReadable_below hname hgate fun c => isNamed_forced
      | false =>
        rw [if_neg Bool.false_ne_true, List.append_assoc]
        refine isReadable_inline hname hgate fun c hc => ?_
        rcases List.mem_append.1 hc with hc | hc
        · exact isNamed_forced hc
        · exact List.mem_singleton.1 hc ▸ isNamed_activator
    · cases hs
  · simpa using isReadable_inline hname hgate (List.forall_mem_nil SimpleSelector.IsNamed)

end Readable

theorem ofStates_ne_nil (h : ofStates className gate isRef force states = .ok selectors) :
    selectors ≠ [] := by
  simp only [ofStates] at h
  split at h
  · cases isRef <;> cases h
    exact List.cons_ne_nil _ _
  · next hne =>
    obtain rfl := Except.ok.inj h
    exact hne

/-- Tokens that are accepted name the states in their order. In whatever states, the selectors of a
class match the elements that are in the states, and a reference is refused exactly if its states
are lacking. -/
theorem matchesInStates (hname : ClassName.IsWord className.toList)
    (hgate : ∀ g, Location.known gate = some g → SelectorList.isName g.toList = true)
    {key family : String} {checkedAsRef : Bool} {tokens : List String}
    (h : ActiveState.ofTokens key family checkedAsRef tokens = .ok states) (isRef force : Bool) :
    states.map (fun s => s.state.name) = tokens
      ∧ MatchesInStates className gate isRef force states := by
  refine ⟨map_name_of_ofTokens h, ?_, fun e he => ?_, fun selectors hs => ?_⟩
  · simp [ofStates_eq_error]
  · obtain ⟨rfl, -⟩ := ofStates_eq_error.1 he
    rfl
  · refine ⟨_, SelectorList.read?_intercalate (ofStates_ne_nil hs)
      (isReadable_of_ofStates hname hgate hs), fun p => ?_⟩
    rw [← exists_matches_iff hs]
    simp

/-- A gated reference to a selected and hovered element around, which may also be forced. -/
theorem matchesInStates_selectedHover :
    ActiveState.ofTokens "k__1" "style" false ["selected", "hover"] = .ok [.selected, .hover]
      ∧ ofStates "abc" (some "-e") true true [.selected, .hover]
        = .ok [⟨some [activator, .pseudo "hover", .ofClass "-s"], [.ofClass "abc", .ofClass "-e"]⟩,
          ⟨some [activator, .ofClass "-s", .ofClass "-h"], [.ofClass "abc", .ofClass "-e"]⟩]
      ∧ MatchesInStates "abc" (some "-e") true true [.selected, .hover]
      ∧ IsMeantFor "abc" (some "-e") true true [.selected, .hover]
        ⟨⟨["abc", "-e"], []⟩, [⟨["card"], []⟩, ⟨["-a", "-s"], ["hover"]⟩]⟩ := by
  have htokens : ActiveState.ofTokens "k__1" "style" false ["selected", "hover"]
      = .ok [.selected, .hover] := rfl
  have hgate : ∀ g, Location.known (some "-e") = some g → SelectorList.isName g.toList = true := by
    rintro _ ⟨rfl⟩
    decide
  refine ⟨htokens, rfl, (matchesInStates ⟨by decide, by simp⟩ hgate htokens true true).2, ?_⟩
  refine ⟨⟨by simp, by rintro _ ⟨rfl⟩; simp⟩, .inr ?_⟩
  exact ⟨_, List.mem_cons_of_mem _ List.mem_cons_self, by simp, .inl ⟨⟨.hover, by simp, by decide⟩,
    by simp [ActiveState.Holds, ActiveState.pseudo?, ActiveState.forcedClass]⟩⟩

end Selector
end AtomicCss

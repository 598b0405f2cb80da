import AtomicCss.Proofs.Styled

/-!
# The conditions of selectors

The selectors of a class under states have conditions on the class itself, its gate and the states.
Which they have is a matter of the states alone: a pseudo-class stands for each state that has one,
and only a class without gate and forced or native states is left bare.

Main definitions: `Selector.conditions`, all conditions of a selector, and `Selector.IsCondition`,
those it can have.
-/
namespace AtomicCss

namespace ActiveState

theorem mem_all (s : ActiveState) : s ∈ all := by
  cases s <;> decide

/-- No two states share a pseudo-class. -/
theorem pseudo?_eq_iff (s : ActiveState) {t : ActiveState} {pseudo : String}
    (h : t.pseudo? = some pseudo) : s.pseudo? = some pseudo ↔ s.state.name = t.state.name := by
  have hall : ∀ s ∈ all, ∀ t ∈ all, t.pseudo? ≠ none →
      (s.pseudo? = t.pseudo? ↔ s.state.name = t.state.name) := by decide
  rw [← h]
  exact hall s (mem_all s) t (mem_all t) (h ▸ Option.some_ne_none pseudo)

end ActiveState

namespace Selector

def conditions (s : Selector) : Compound := s.ancestor.getD [] ++ s.element

/-- The conditions that stand for states, and those that go with them. -/
def stateConditions : Compound :=
  activator :: .ofClass shadowGate :: nativeConditions ActiveState.all
    ++ forcedConditions ActiveState.all

def IsCondition (className : String) (c : SimpleSelector) : Prop :=
  c = .ofClass className ∨ c ∈ stateConditions

section OfStates

variable {className : String} {gate : Option String} {isRef force : Bool}
  {states : List ActiveState} {selectors : List Selector} {s : Selector}

/-- The selectors are the native and the forced form, as far as there are such, or else the bare
target. -/
theorem mem_ofStates (h : ofStates className gate isRef force states = .ok selectors) :
    s ∈ selectors ↔ native? (target className gate) isRef states = some s
      ∨ forced? (target className gate) isRef force states = some s
      ∨ (native? (target className gate) isRef states = none
        ∧ forced? (target className gate) isRef force states = none
        ∧ s = ⟨none, target className gate⟩) := by
  simp only [ofStates] at h
  cases hnative : native? (target className gate) isRef states <;>
    cases hforced : forced? (target className gate) isRef force states <;>
    simp only [hnative, hforced, List.filterMap_cons, List.filterMap_nil, id_eq] at h
  · cases isRef with
    | true => cases h
    | false =>
      obtain rfl := Except.ok.inj h
      simp
  all_goals
    obtain rfl := Except.ok.inj h
    simp [eq_comm]

theorem mem_conditions_native {t : Compound} (h : native? t isRef states = some s)
    (c : SimpleSelector) : c ∈ s.conditions
      ↔ c ∈ t ∨ c ∈ nativeConditions states ∨ isRef = true ∧ c = activator := by
  rw [native?] at h
  split at h
  · obtain rfl := Option.some.inj h
    cases isRef
    · simp [conditions]
    · simp [conditions]
      tauto
  · cases h

theorem mem_conditions_forced {t : Compound} (h : forced? t isRef force states = some s)
    (c : SimpleSelector) : c ∈ s.conditions
      ↔ c ∈ t ∨ c ∈ forcedConditions states ∨ c = activator := by
  rw [forced?] at h
  split at h
  · obtain rfl := Option.some.inj h
    cases isRef
    · simp [conditions]
    · simp [conditions]
      tauto
  · cases h

theorem native?_eq_none (t : Compound) (isRef : Bool) {states : List ActiveState} :
    native? t isRef states = none ↔ ∀ s ∈ states, s.pseudo? = none := by
  simp [native?]

theorem forced?_eq_none (t : Compound) (isRef force : Bool) {states : List ActiveState} :
    forced? t isRef force states = none
      ↔ ¬(states ≠ [] ∧ (force = true ∨ .disabled ∈ states)) := by
  simp [forced?]

theorem mem_target {c : SimpleSelector} : c ∈ target className gate
    ↔ c = .ofClass className ∨ ∃ g, Location.known gate = some g ∧ c = .ofClass g := by
  cases h : Location.known gate <;> simp [target, h]

theorem mem_nativeConditions {c : SimpleSelector} : c ∈ nativeConditions states
    ↔ (∃ s ∈ states, ∃ name, s.pseudo? = some name ∧ c = .pseudo name)
      ∨ ∃ s ∈ states, s.pseudo? = none ∧ c = .ofClass s.forcedClass := by
  simp only [nativeConditions, List.mem_append, List.mem_filterMap, List.mem_map, List.mem_filter,
    Option.map_eq_some_iff, Option.isNone_iff_eq_none, and_assoc, eq_comm (a := c)]

theorem mem_forcedConditions {c : SimpleSelector} : c ∈ forcedConditions states
    ↔ ∃ s ∈ states, c = .ofClass s.forcedClass := by
  simp [forcedConditions, eq_comm]

theorem isCondition_of_target (hgate : IsGate gate) {c : SimpleSelector}
    (h : c ∈ target className gate) : IsCondition className c := by
  rcases mem_target.1 h with rfl | ⟨g, hg, rfl⟩
  · exact .inl rfl
  · rcases hgate with rfl | rfl
    · cases hg
    · cases hg
      exact .inr (by decide)

theorem isCondition_of_native {c : SimpleSelector} (h : c ∈ nativeConditions states) :
    IsCondition className c := by
  have hall : c ∈ nativeConditions ActiveState.all := by
    rw [mem_nativeConditions] at h ⊢
    exact h.imp (fun ⟨s, _, h⟩ => ⟨s, s.mem_all, h⟩) fun ⟨s, _, h⟩ => ⟨s, s.mem_all, h⟩
  exact .inr (by simp [stateConditions, hall])

theorem isCondition_of_forced {c : SimpleSelector} (h : c ∈ forcedConditions states) :
    IsCondition className c := by
  obtain ⟨s, -, rfl⟩ := mem_forcedConditions.1 h
  have hall : SimpleSelector.ofClass s.forcedClass ∈ forcedConditions ActiveState.all :=
    mem_forcedConditions.2 ⟨s, s.mem_all, rfl⟩
  exact .inr (by simp [stateConditions, hall])

theorem isCondition_activator : IsCondition className activator :=
  .inr (by decide)

/-- The selectors have no conditions but the class, its gate and those of states. -/
theorem isCondition_of_ofStates (hgate : IsGate gate)
    (h : ofStates className gate isRef force states = .ok selectors) (hs : s ∈ selectors)
    {c : SimpleSelector} (hc : c ∈ s.conditions) : IsCondition className c := by
  rcases (mem_ofStates h).1 hs with hs | hs | ⟨-, -, rfl⟩
  · rcases (mem_conditions_native hs c).1 hc with hc | hc | ⟨-, rfl⟩
    · exact isCondition_of_target hgate hc
    · exact isCondition_of_native hc
    · exact isCondition_activator
  · rcases (mem_conditions_forced hs c).1 hc with hc | hc | rfl
    · exact isCondition_of_target hgate hc
    · exact isCondition_of_forced hc
    · exact isCondition_activator
  · exact isCondition_of_target hgate (by simpa [conditions] using hc)

theorem exists_pseudo_iff (h : ofStates className gate isRef force states = .ok selectors)
    (name : String) : (∃ s ∈ selectors, .pseudo name ∈ s.conditions)
      ↔ ∃ state ∈ states, state.pseudo? = some name := by
  have htarget : .pseudo name ∉ target className gate := by simp [mem_target]
  have hforced : .pseudo name ∉ forcedConditions states := by simp [mem_forcedConditions]
  have hnative : .pseudo name ∈ nativeConditions states
      ↔ ∃ state ∈ states, state.pseudo? = some name := by
    simp [mem_nativeConditions]
  constructor
  · rintro ⟨s, hs, hc⟩
    rcases (mem_ofStates h).1 hs with hs | hs | ⟨-, -, rfl⟩
    · rcases (mem_conditions_native hs _).1 hc with hc | hc | ⟨-, hc⟩
      · exact absurd hc htarget
      · exact hnative.1 hc
      · cases hc
    · rcases (mem_conditions_forced hs _).1 hc with hc | hc | hc
      · exact absurd hc htarget
      · exact absurd hc hforced
      · cases hc
    · exact absurd (by simpa [conditions] using hc) htarget
  · rintro ⟨state, hstate, hname⟩
    obtain ⟨s, hs⟩ : ∃ s, native? (target className gate) isRef states = some s := by
      rw [← Option.ne_none_iff_exists']
      intro hnone
      rw [(native?_eq_none _ _).1 hnone state hstate] at hname
      cases hname
    exact ⟨s, (mem_ofStates h).2 (.inl hs),
      (mem_conditions_native hs _).2 (.inr (.inl (hnative.2 ⟨state, hstate, hname⟩)))⟩

theorem mem_conditions_of_target (h : ofStates className gate isRef force states = .ok selectors)
    (hs : s ∈ selectors) {c : SimpleSelector} (hc : c ∈ target className gate) :
    c ∈ s.conditions := by
  rcases (mem_ofStates h).1 hs with hs | hs | ⟨-, -, rfl⟩
  · exact (mem_conditions_native hs c).2 (.inl hc)
  · exact (mem_conditions_forced hs c).2 (.inl hc)
  · simpa [conditions] using hc

theorem exists_beyond_of_native
    (hs : native? (target className gate) isRef states = some s) :
    ∃ c ∈ s.conditions, c ≠ .ofClass className := by
  have hstate : ¬∀ s ∈ states, s.pseudo? = none := fun hnone => by
    rw [(native?_eq_none _ _).2 hnone] at hs
    cases hs
  simp only [not_forall, exists_prop, ← ne_eq, Option.ne_none_iff_exists'] at hstate
  obtain ⟨state, hstate, name, hpseudo⟩ := hstate
  have hc := mem_nativeConditions.2 (.inl ⟨state, hstate, name, hpseudo, rfl⟩)
  exact ⟨_, (mem_conditions_native hs _).2 (.inr (.inl hc)), SimpleSelector.noConfusion⟩

section Beyond

variable (hname : ClassName.IsWord className.toList) (hgate : IsGate gate)
  (h : ofStates className gate isRef force states = .ok selectors)
include hname

theorem ne_of_isWord {name : String} (hdash : '-' ∈ name.toList) : name ≠ className := by
  rintro rfl
  exact absurd (hname.2 '-' hdash) (by decide)

theorem exists_beyond_of_forced
    (hs : forced? (target className gate) isRef force states = some s) :
    ∃ c ∈ s.conditions, c ≠ .ofClass className := by
  refine ⟨_, (mem_conditions_forced hs _).2 (.inr (.inr rfl)), fun h => ?_⟩
  exact ne_of_isWord hname (by decide) (SimpleSelector.ofClass.inj h)

include hgate in
theorem exists_beyond_of_gate (hknown : Location.known gate ≠ none) :
    ∃ c ∈ target className gate, c ≠ .ofClass className := by
  obtain ⟨g, hg⟩ := Option.ne_none_iff_exists'.1 hknown
  refine ⟨_, mem_target.2 (.inr ⟨g, hg, rfl⟩), fun h => ?_⟩
  rcases hgate with rfl | rfl <;> cases hg
  exact ne_of_isWord hname (by decide) (SimpleSelector.ofClass.inj h)

include hgate h

/-- A selector has conditions beside the class exactly if it is not that of the bare class. -/
theorem exists_beyond_iff (hs : s ∈ selectors) :
    (∃ c ∈ s.conditions, c ≠ .ofClass className) ↔ s ∉ Rule.bare className := by
  constructor
  · rintro ⟨c, hc, hne⟩ hbare
    rw [List.mem_singleton.1 hbare] at hc
    exact hne (by simpa [conditions] using hc)
  · intro hbare
    rcases (mem_ofStates h).1 hs with hs | hs | ⟨-, -, rfl⟩
    · exact exists_beyond_of_native hs
    · exact exists_beyond_of_forced hname hs
    · refine exists_beyond_of_gate hname hgate fun hknown => hbare ?_
      simp [Rule.bare, target, hknown]

/-- Some selector is not that of the bare class exactly if there is a gate, or some state has a
pseudo-class, or the states are forced. -/
theorem exists_notMem_bare_iff : (∃ s ∈ selectors, s ∉ Rule.bare className)
    ↔ Location.known gate ≠ none ∨ (∃ state ∈ states, state.pseudo? ≠ none)
      ∨ (states ≠ [] ∧ (force = true ∨ .disabled ∈ states)) := by
  constructor
  · rintro ⟨s, hs, hbare⟩
    rcases (mem_ofStates h).1 hs with hs | hs | ⟨-, -, rfl⟩
    · refine .inr (.inl ?_)
      by_contra hnone
      rw [(native?_eq_none _ _).2 (by simpa using hnone)] at hs
      cases hs
    · refine .inr (.inr ?_)
      by_contra hnone
      rw [(forced?_eq_none _ _ _).2 hnone] at hs
      cases hs
    · refine .inl fun hknown => hbare ?_
      simp [Rule.bare, target, hknown]
  · have hbeyond := fun s (hs : s ∈ selectors) => (exists_beyond_iff hname hgate h hs).1
    rintro (hknown | ⟨state, hstate, hpseudo⟩ | hforced)
    · obtain ⟨c, hc, hne⟩ := exists_beyond_of_gate hname hgate hknown
      obtain ⟨s, hs⟩ := List.exists_mem_of_ne_nil _ (isFor_of_ofStates hgate h).1
      exact ⟨s, hs, hbeyond s hs ⟨c, mem_conditions_of_target h hs hc, hne⟩⟩
    · obtain ⟨s, hnative⟩ := Option.ne_none_iff_exists'.1 fun hnone =>
        hpseudo ((native?_eq_none (target className gate) isRef).1 hnone state hstate)
      have hs := (mem_ofStates h).2 (.inl hnative)
      exact ⟨s, hs, hbeyond s hs (exists_beyond_of_native hnative)⟩
    · obtain ⟨s, hsome⟩ := Option.ne_none_iff_exists'.1 fun hnone =>
        (forced?_eq_none (target className gate) isRef force).1 hnone hforced
      have hs := (mem_ofStates h).2 (.inr (.inl hsome))
      exact ⟨s, hs, hbeyond s hs (exists_beyond_of_forced hname hsome)⟩

end Beyond

theorem head?_text (h : ofStates className gate isRef force states = .ok selectors)
    (hs : s ∈ selectors) : s.text.toList.head? = some '.' := by
  obtain ⟨gates, htarget⟩ : ∃ gates, target className gate = .ofClass className :: gates := by
    cases hgate : Location.known gate <;> simp [target, hgate]
  have hinline : ∀ (name : String) (conditions : Compound),
      (text ⟨none, .ofClass name :: conditions⟩).toList.head? = some '.' := by
    intro name conditions
    simp [text, Compound.text, SimpleSelector.text]
  have href : ∀ (name : String) (conditions element : Compound),
      (text ⟨some (.ofClass name :: conditions), element⟩).toList.head? = some '.' := by
    intro name conditions element
    simp [text, Compound.text, SimpleSelector.text]
  rw [mem_ofStates h, htarget] at hs
  rcases hs with hs | hs | ⟨-, -, rfl⟩
  · rw [native?] at hs
    split at hs
    · obtain rfl := Option.some.inj hs
      cases isRef
      · exact hinline className _
      · exact href _ _ _
    · cases hs
  · rw [forced?] at hs
    split at hs
    · obtain rfl := Option.some.inj hs
      cases isRef
      · exact hinline className _
      · exact href _ _ _
    · cases hs
  · exact hinline className gates

end OfStates

/-- The characters of a selector are those of its conditions and the space after an ancestor. -/
theorem mem_text {s : Selector} {c : Char} (h : c ∈ s.text.toList) :
    c = ' ' ∨ ∃ condition ∈ s.conditions, c ∈ condition.text.toList := by
  have hcompound : ∀ compound : Compound, c ∈ compound.text.toList →
      ∃ condition ∈ compound, c ∈ condition.text.toList := by
    intro compound hc
    simpa [Compound.text, String.toList_join] using hc
  obtain ⟨ancestor, element⟩ := s
  cases ancestor with
  | none => exact .inr (hcompound element h)
  | some a =>
    simp only [text, String.toList_append, List.mem_append] at h
    rcases h with (h | h) | h
    · obtain ⟨condition, hmem, hc⟩ := hcompound a h
      exact .inr ⟨condition, List.mem_append_left _ hmem, hc⟩
    · exact .inl (by simpa using h)
    · obtain ⟨condition, hmem, hc⟩ := hcompound element h
      exact .inr ⟨condition, List.mem_append_right _ hmem, hc⟩

end Selector
end AtomicCss

import AtomicCss.Css.Stylesheet
import AtomicCss.Proofs.Naming
import Mathlib.Data.Char

/-!
# The class a rule styles

Every family writes its rules on the class of the key, whatever states, references and gates add to
the selectors. The class can be read back from the text of the rule.
-/
namespace AtomicCss

/-- Characters that end a selector or a part of one. -/
def isBoundary (c : Char) : Bool := c = ' ' || c = ',' || c = '\x7b'

/-- A text within one part of a selector. -/
def Unbroken (cs : List Char) : Prop := ∀ c ∈ cs, isBoundary c = false

instance (cs : List Char) : Decidable (Unbroken cs) := List.decidableBAll _ cs

theorem Unbroken.append {cs ds : List Char} (hc : Unbroken cs) (hd : Unbroken ds) :
    Unbroken (cs ++ ds) := fun c h => (List.mem_append.1 h).elim (hc c) (hd c)

theorem unbroken_of_isWord {cs : List Char} (h : ClassName.IsWord cs) : Unbroken cs := by
  intro c hc
  have hlow := (h.2 c hc).1
  have hne : ∀ d, d < 'a' → c ≠ d := fun d hd e => absurd hlow (e ▸ not_le.2 hd)
  have hbrace : c ≠ '\x7b' := fun e => absurd (h.2 c hc).2 (e ▸ by decide)
  simp [isBoundary, hne ' ' (by decide), hne ',' (by decide), hbrace]

namespace Selector

/-- A selector of elements that have a class, in whatever further conditions. -/
structure IsFor (className : String) (s : Selector) : Prop where
  element : ∃ conditions, s.element = .ofClass className :: conditions
    ∧ ∀ c ∈ conditions, Unbroken c.text.toList
  ancestor : ∀ a, s.ancestor = some a → ∀ c ∈ a, Unbroken c.text.toList

theorem unbroken_nativeConditions {states : List ActiveState} {c : SimpleSelector}
    (h : c ∈ nativeConditions states) : Unbroken c.text.toList := by
  simp only [nativeConditions, List.mem_append, List.mem_filterMap, List.mem_map,
    Option.map_eq_some_iff] at h
  rcases h with ⟨s, -, name, hname, rfl⟩ | ⟨s, -, rfl⟩
  · cases s <;> cases hname <;> decide
  · cases s <;> decide

theorem unbroken_forcedConditions {states : List ActiveState} {c : SimpleSelector}
    (h : c ∈ forcedConditions states) : Unbroken c.text.toList := by
  obtain ⟨s, -, rfl⟩ := List.mem_map.1 h
  cases s <;> decide

theorem unbroken_activator : Unbroken activator.text.toList := by decide

/-- A gate that can stand beside a class. -/
def IsGate (gate : Option String) : Prop := gate = none ∨ gate = some shadowGate

theorem target_eq (className : String) {gate : Option String} (h : IsGate gate) :
    ∃ gates, target className gate = .ofClass className :: gates
      ∧ ∀ c ∈ gates, Unbroken c.text.toList := by
  rcases h with rfl | rfl
  · exact ⟨[], rfl, by simp⟩
  · refine ⟨[.ofClass shadowGate], rfl, ?_⟩
    intro c hc
    rw [List.mem_singleton.1 hc]
    decide

section

variable {className : String} {gate : Option String} (hgate : IsGate gate)
include hgate

/-- The conditions stand beside the class. -/
theorem isFor_inline {conditions : Compound} (hc : ∀ c ∈ conditions, Unbroken c.text.toList) :
    IsFor className ⟨none, target className gate ++ conditions⟩ := by
  obtain ⟨gates, htarget, hgates⟩ := target_eq className hgate
  refine ⟨⟨gates ++ conditions, by rw [htarget]; rfl, ?_⟩, by simp⟩
  exact fun c h => (List.mem_append.1 h).elim (hgates c) (hc c)

/-- The conditions stand on an activator around the class. -/
theorem isFor_reference {conditions : Compound} (hc : ∀ c ∈ conditions, Unbroken c.text.toList) :
    IsFor className ⟨some (activator :: conditions), target className gate⟩ := by
  obtain ⟨gates, htarget, hgates⟩ := target_eq className hgate
  refine ⟨⟨gates, htarget, hgates⟩, ?_⟩
  rintro _ ⟨rfl⟩ c h
  rcases List.mem_cons.1 h with rfl | h
  · exact unbroken_activator
  · exact hc c h

variable {isRef force : Bool} {states : List ActiveState}

theorem isFor_native {s : Selector} (h : native? (target className gate) isRef states = some s) :
    s.IsFor className := by
  rw [native?] at h
  split at h
  · cases h
    split
    · exact isFor_reference hgate fun c => unbroken_nativeConditions
    · exact isFor_inline hgate fun c => unbroken_nativeConditions
  · cases h

theorem isFor_forced {s : Selector}
    (h : forced? (target className gate) isRef force states = some s) : s.IsFor className := by
  rw [forced?] at h
  split at h
  · cases h
    split
    · exact isFor_reference hgate fun c => unbroken_forcedConditions
    · rw [List.append_assoc]
      refine isFor_inline hgate fun c hc => ?_
      rcases List.mem_append.1 hc with hc | hc
      · exact unbroken_forcedConditions hc
      · rw [List.mem_singleton.1 hc]
        exact unbroken_activator
  · cases h

theorem isFor_of_ofStates {selectors : List Selector}
    (h : ofStates className gate isRef force states = .ok selectors) :
    selectors ≠ [] ∧ ∀ s ∈ selectors, s.IsFor className := by
  simp only [ofStates] at h
  split at h
  · split at h
    · cases h
    · cases h
      have hbare : IsFor className ⟨none, target className gate ++ []⟩ :=
        isFor_inline hgate (by simp)
      exact ⟨by simp, by simpa using hbare⟩
  · next hne =>
    cases h
    refine ⟨hne, fun s hs => ?_⟩
    simp only [List.mem_filterMap, List.mem_cons, List.not_mem_nil, or_false, id_eq] at hs
    obtain ⟨s?, hs | hs, rfl⟩ := hs
    · exact isFor_native hgate hs.symm
    · exact isFor_forced hgate hs.symm

end

theorem isFor_bare (className : String) : ∀ s ∈ Rule.bare className, s.IsFor className := by
  intro s hs
  rw [List.mem_singleton.1 hs]
  exact ⟨⟨[], rfl, by simp⟩, by simp⟩

end Selector

namespace Rule

def lastPart (selector : List Char) : List Char :=
  ((selector.splitOn ' ').filter fun part => !part.isEmpty).getLastD []

/-- The class that the text of a rule is about: the letters after the point in the last part of its
first selector. -/
def styledClass (body : String) : String :=
  let selector := body.toList.takeWhile fun c => c ≠ ',' && c ≠ '\x7b'
  String.ofList (((lastPart selector).drop 1).takeWhile fun c => 'a' ≤ c && c ≤ 'z')

theorem lastPart_of_notMem {part : List Char} (h : ' ' ∉ part) : lastPart part = part := by
  rw [lastPart, List.splitOn_eq_singleton h]
  cases part <;> rfl

theorem lastPart_append (front : List Char) {part : List Char} (hne : part ≠ [])
    (h : ' ' ∉ part) : lastPart (front ++ ' ' :: part) = part := by
  have hpart : part.isEmpty = false := by simpa using hne
  rw [lastPart, List.splitOn_append_cons_self, List.filter_append, List.splitOn_eq_singleton h]
  simp [hpart]

theorem lastPart_append_space (selector : List Char) :
    lastPart (selector ++ [' ']) = lastPart selector := by
  rw [lastPart, List.splitOn_append_cons_self, List.filter_append]
  simp [lastPart]

theorem unbroken_compound {c : Compound} (h : ∀ s ∈ c, Unbroken s.text.toList) :
    Unbroken c.text.toList := by
  intro d hd
  simp only [Compound.text, String.toList_join, List.mem_flatMap, List.mem_map] at hd
  obtain ⟨_, ⟨s, hs, rfl⟩, hd⟩ := hd
  exact h s hs d hd

theorem lastPart_text {className : String} (hname : ClassName.IsWord className.toList)
    {s : Selector} (h : s.IsFor className) : ∃ conditions : Compound,
      lastPart s.text.toList = '.' :: className.toList ++ conditions.text.toList
        ∧ ∀ c ∈ s.text.toList, c ≠ ',' ∧ c ≠ '\x7b' := by
  obtain ⟨⟨conditions, helement, hconditions⟩, hancestor⟩ := h
  have hname' := unbroken_of_isWord hname
  have htext : (Compound.text s.element).toList
      = '.' :: className.toList ++ (Compound.text conditions).toList := by
    rw [helement]
    simp [Compound.text, SimpleSelector.text]
  have hunbroken : Unbroken (Compound.text s.element).toList := by
    rw [htext]
    refine Unbroken.append ?_ (unbroken_compound hconditions)
    intro c hc
    rcases List.mem_cons.1 hc with rfl | hc
    · decide
    · exact hname' c hc
  have hchar : ∀ c, isBoundary c = false → c ≠ ',' ∧ c ≠ '\x7b' := by
    intro c hc
    constructor <;> rintro rfl <;> exact absurd hc (by decide)
  have hspace : ' ' ∉ (Compound.text s.element).toList :=
    fun hm => absurd (hunbroken _ hm) (by decide)
  refine ⟨conditions, ?_⟩
  rw [← htext, Selector.text]
  cases ha : s.ancestor with
  | none => exact ⟨lastPart_of_notMem hspace, fun c hc => hchar c (hunbroken c hc)⟩
  | some a =>
    have hsplit : (Compound.text a ++ " " ++ Compound.text s.element).toList
        = (Compound.text a).toList ++ ' ' :: (Compound.text s.element).toList := by
      simp
    simp only [hsplit]
    refine ⟨lastPart_append _ (by simp [htext]) hspace, fun c hc => ?_⟩
    rcases List.mem_append.1 hc with hc | hc
    · exact hchar c (unbroken_compound (hancestor a ha) c hc)
    · rcases List.mem_cons.1 hc with rfl | hc
      · decide
      · exact hchar c (hunbroken c hc)

theorem takeWhile_word {word rest : List Char} (hword : ClassName.IsWord word)
    (hrest : ∀ c ∈ rest.head?, ¬('a' ≤ c ∧ c ≤ 'z')) :
    (word ++ rest).takeWhile (fun c => 'a' ≤ c && c ≤ 'z') = word := by
  rw [List.takeWhile_append_of_pos fun c hc => by simpa using hword.2 c hc]
  cases rest with
  | nil => simp
  | cons c rest =>
    have hc : ('a' ≤ c && c ≤ 'z') = false := by simpa using hrest c rfl
    simp [hc]

theorem head_conditions (conditions : Compound) :
    ∀ c ∈ (Compound.text conditions).toList.head?, ¬('a' ≤ c ∧ c ≤ 'z') := by
  intro c hc
  have hpoint : c = '.' ∨ c = ':' := by
    cases conditions with
    | nil => simp [Compound.text] at hc
    | cons s conditions => cases s <;> simp_all [Compound.text, SimpleSelector.text, eq_comm]
  rcases hpoint with rfl | rfl <;> decide

/-- A rule with selectors for a class is about that class. -/
theorem styledClass_bodyOf {className : String} (hname : ClassName.IsWord className.toList)
    {selectors : List Selector} (hne : selectors ≠ [])
    (h : ∀ s ∈ selectors, s.IsFor className) (property value : String) :
    styledClass (bodyOf selectors property value) = className := by
  obtain ⟨s, rest, rfl⟩ := List.exists_cons_of_ne_nil hne
  obtain ⟨conditions, hlast, hchars⟩ := lastPart_text hname (h s List.mem_cons_self)
  have htake : ∀ tail : List Char, (s.text.toList ++ tail).takeWhile
      (fun c => c ≠ ',' && c ≠ '\x7b')
        = s.text.toList ++ tail.takeWhile fun c => c ≠ ',' && c ≠ '\x7b' :=
    fun tail => List.takeWhile_append_of_pos fun c hc => by simpa using hchars c hc
  -- The first selector ends with a comma, or with the space before the brace.
  have hselector : lastPart ((bodyOf (s :: rest) property value).toList.takeWhile
      fun c => c ≠ ',' && c ≠ '\x7b') = lastPart s.text.toList := by
    cases rest with
    | nil =>
      have hbody : (bodyOf [s] property value).toList = s.text.toList
          ++ (' ' :: '\x7b' :: (' ' :: property.toList ++ ": ".toList ++ value.toList
            ++ " \x7d".toList)) := by
        simp [bodyOf]
      rw [hbody, htake]
      exact lastPart_append_space _
    | cons r rest =>
      have hbody : ∃ tail, (bodyOf (s :: r :: rest) property value).toList
          = s.text.toList ++ ',' :: tail := by
        simp only [bodyOf, List.map_cons, String.intercalate_cons_cons, String.toList_append,
          List.append_assoc]
        exact ⟨_, rfl⟩
      obtain ⟨tail, hbody⟩ := hbody
      rw [hbody, htake]
      simp
  rw [styledClass, hselector, hlast]
  have hread := takeWhile_word hname (head_conditions conditions)
  rw [List.cons_append, List.drop_one, List.tail_cons, hread, String.ofList_toList]

end Rule
end AtomicCss

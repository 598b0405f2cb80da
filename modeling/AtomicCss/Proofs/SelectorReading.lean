import AtomicCss.Proofs.SelectorConditions

/-!
# Selectors as CSS reads them

CSS cuts a list of selectors at its commas and a selector at its blanks, and reads what stands
between these as conditions, each a mark and a name. The element of the last part is the one that
is matched, and the parts before it ask for ancestors. A list of selectors whose conditions have
proper names is read as the conditions it was written from.
-/
namespace AtomicCss

namespace SelectorList

def isNameStart (c : Char) : Bool := c.isAlpha || c = '_' || 0x80 ≤ c.toNat

def isNameChar (c : Char) : Bool := isNameStart c || c.isDigit || c = '-'

/-- Whether a text begins as a name does. A dash at its front goes before a second one or before
the beginning of a name. -/
def beginsName : List Char → Bool
  | '-' :: c :: _ => c = '-' || isNameStart c
  | c :: _ => isNameStart c
  | [] => false

def isName (cs : List Char) : Bool := beginsName cs && cs.all isNameChar

def isMark (c : Char) : Bool := c = '.' || c = ':'

/-- What stands before the first mark of a text, and the pieces that the marks begin. -/
def pieces : List Char → List Char × List (List Char)
  | [] => ([], [])
  | c :: cs =>
    let (front, rest) := pieces cs
    if isMark c then ([], (c :: front) :: rest) else (c :: front, rest)

def condition? : List Char → Option SimpleSelector
  | '.' :: name => if isName name then some (.ofClass (String.ofList name)) else none
  | ':' :: name => if isName name then some (.pseudo (String.ofList name)) else none
  | _ => none

def compound? (cs : List Char) : Option Compound :=
  match pieces cs with
  | ([], conditions) => conditions.mapM condition?
  | _ => none

/-- The conditions of one selector, outermost element first. There must be some. -/
def parts? (cs : List Char) : Option (List Compound) :=
  match (cs.splitOn ' ').filter fun part => !part.isEmpty with
  | [] => none
  | parts => parts.mapM compound?

def read? (text : String) : Option (List (List Compound)) := (text.toList.splitOn ',').mapM parts?

theorem isNameChar_of_isName {cs : List Char} (h : isName cs = true) {c : Char} (hc : c ∈ cs) :
    isNameChar c = true := by
  rw [isName, Bool.and_eq_true] at h
  exact List.all_eq_true.1 h.2 c hc

theorem isMark_of_isNameChar {c : Char} (h : isNameChar c = true) : isMark c = false := by
  rw [isMark, Bool.or_eq_false_iff, decide_eq_false_iff_not, decide_eq_false_iff_not]
  constructor <;> rintro rfl <;> exact absurd h (by decide)

theorem isName_of_isWord {cs : List Char} (h : ClassName.IsWord cs) : isName cs = true := by
  have hletter : ∀ c ∈ cs, c.isAlpha = true := by
    intro c hc
    have hlower : c.isLower = true :=
      Bool.and_eq_true_iff.2 ((h.2 c hc).imp decide_eq_true decide_eq_true)
    change (c.isUpper || c.isLower) = true
    rw [hlower, Bool.or_true]
  have hstart : ∀ c ∈ cs, isNameStart c = true := fun c hc => by
    rw [isNameStart, hletter c hc, Bool.true_or, Bool.true_or]
  have hall : cs.all isNameChar = true :=
    List.all_eq_true.2 fun c hc => by rw [isNameChar, hstart c hc, Bool.true_or, Bool.true_or]
  rw [isName, hall, Bool.and_true]
  unfold beginsName
  split
  · next c _ => exact absurd (hletter '-' List.mem_cons_self) (by decide)
  · next c _ _ => exact hstart c List.mem_cons_self
  · exact absurd rfl h.1

end SelectorList

namespace SimpleSelector

def name : SimpleSelector → String
  | ofClass name | pseudo name => name

def IsNamed (s : SimpleSelector) : Prop := SelectorList.isName s.name.toList = true

instance (s : SimpleSelector) : Decidable s.IsNamed := inferInstanceAs (Decidable (_ = _))

theorem exists_text (s : SimpleSelector) :
    ∃ mark, SelectorList.isMark mark = true ∧ s.text.toList = mark :: s.name.toList := by
  cases s with
  | ofClass name => exact ⟨'.', by decide, by simp [text, SimpleSelector.name]⟩
  | pseudo name => exact ⟨':', by decide, by simp [text, SimpleSelector.name]⟩

end SimpleSelector

/-- The conditions of a selector, outermost element first. -/
def Selector.parts (s : Selector) : List Compound := s.ancestor.toList ++ [s.element]

namespace SelectorList

section Compound

variable {c : Compound}

theorem condition?_text {s : SimpleSelector} (h : s.IsNamed) :
    condition? s.text.toList = some s := by
  cases s with
  | ofClass name =>
    have htext : (SimpleSelector.ofClass name).text.toList = '.' :: name.toList := by
      simp [SimpleSelector.text]
    rw [htext]
    exact (if_pos h).trans (by rw [String.ofList_toList])
  | pseudo name =>
    have htext : (SimpleSelector.pseudo name).text.toList = ':' :: name.toList := by
      simp [SimpleSelector.text]
    rw [htext]
    exact (if_pos h).trans (by rw [String.ofList_toList])

/-- What holds no mark stands before the first mark. -/
theorem pieces_append {front : List Char} (h : ∀ c ∈ front, isMark c = false) (rest : List Char) :
    pieces (front ++ rest) = (front ++ (pieces rest).1, (pieces rest).2) := by
  induction front with
  | nil => rfl
  | cons c front ih =>
    rw [List.cons_append, pieces, ih fun d hd => h d (List.mem_cons_of_mem c hd)]
    simp [h c List.mem_cons_self]

variable (h : ∀ s ∈ c, s.IsNamed)
include h

theorem pieces_text : pieces c.text.toList = ([], c.map fun s => s.text.toList) := by
  induction c with
  | nil => rfl
  | cons s c ih =>
    obtain ⟨mark, hmark, hs⟩ := s.exists_text
    have hname : ∀ d ∈ s.name.toList, isMark d = false := fun d hd =>
      isMark_of_isNameChar (isNameChar_of_isName (h s List.mem_cons_self) hd)
    have htext : (Compound.text (s :: c)).toList
        = mark :: (s.name.toList ++ (Compound.text c).toList) := by
      simp [Compound.text, hs]
    rw [htext, pieces, pieces_append hname, ih fun s hs => h s (List.mem_cons_of_mem _ hs)]
    simp [hmark, hs]

theorem compound?_text : compound? c.text.toList = some c := by
  rw [compound?, pieces_text h]
  induction c with
  | nil => rfl
  | cons s c ih =>
    have hrest := ih fun s hs => h s (List.mem_cons_of_mem _ hs)
    dsimp only at hrest ⊢
    rw [List.map_cons, List.mapM_cons, condition?_text (h s List.mem_cons_self), hrest]
    rfl

/-- Neither a comma nor a blank stands among conditions. -/
theorem notMem_text : ',' ∉ c.text.toList ∧ ' ' ∉ c.text.toList := by
  have hall : ∀ d ∈ c.text.toList, isMark d = true ∨ isNameChar d = true := by
    intro d hd
    obtain ⟨s, hs, hd⟩ : ∃ s ∈ c, d ∈ s.text.toList := by
      simpa [Compound.text, String.toList_join] using hd
    obtain ⟨mark, hmark, htext⟩ := s.exists_text
    rw [htext] at hd
    rcases List.mem_cons.1 hd with rfl | hd
    · exact .inl hmark
    · exact .inr (isNameChar_of_isName (h s hs) hd)
  exact ⟨fun hd => absurd (hall _ hd) (by decide), fun hd => absurd (hall _ hd) (by decide)⟩

end Compound

/-- A selector that CSS can read: every part has conditions, and these have proper names. -/
def IsReadable (s : Selector) : Prop := ∀ c ∈ s.parts, c ≠ [] ∧ ∀ t ∈ c, t.IsNamed

theorem text_ne_nil {c : Compound} (h : c ≠ []) : c.text.toList ≠ [] := by
  obtain ⟨s, c, rfl⟩ := List.exists_cons_of_ne_nil h
  obtain ⟨mark, -, htext⟩ := s.exists_text
  simp [Compound.text, htext]

section Selector

variable {s : Selector} (h : IsReadable s)
include h

theorem notMem_selector : ',' ∉ s.text.toList := by
  obtain ⟨ancestor, element⟩ := s
  have helement := (notMem_text (h element (by simp [Selector.parts])).2).1
  cases ancestor with
  | none => exact helement
  | some a =>
    have hancestor := (notMem_text (h a (by simp [Selector.parts])).2).1
    simp [Selector.text, hancestor, helement]

theorem parts?_text : parts? s.text.toList = some s.parts := by
  obtain ⟨ancestor, element⟩ := s
  have hsingle : ∀ c ∈ Selector.parts ⟨ancestor, element⟩,
      (c.text.toList.splitOn ' ').filter (fun part => !part.isEmpty) = [c.text.toList]
        ∧ compound? c.text.toList = some c := by
    intro c hc
    obtain ⟨hne, hnamed⟩ := h c hc
    rw [List.splitOn_eq_singleton (notMem_text hnamed).2]
    exact ⟨by simp [text_ne_nil hne], compound?_text hnamed⟩
  obtain ⟨helement, hread⟩ := hsingle element (by simp [Selector.parts])
  cases ancestor with
  | none => simp [parts?, Selector.text, Selector.parts, helement, hread]
  | some a =>
    obtain ⟨hancestor, hreadAncestor⟩ := hsingle a (by simp [Selector.parts])
    have htext : (Selector.text ⟨some a, element⟩).toList
        = a.text.toList ++ ' ' :: element.text.toList := by
      simp [Selector.text]
    rw [htext, parts?, List.splitOn_append_cons_self, List.filter_append, hancestor, helement]
    simp [Selector.parts, hread, hreadAncestor]

theorem parts?_blank : parts? (' ' :: s.text.toList) = some s.parts := by
  have hblank : (' ' :: s.text.toList).splitOn ' ' = [] :: s.text.toList.splitOn ' ' :=
    List.splitOn_append_cons_self [] s.text.toList
  rw [← parts?_text h, parts?, hblank]
  rfl

end Selector

theorem read?_intercalate {selectors : List Selector} (hne : selectors ≠ [])
    (h : ∀ s ∈ selectors, IsReadable s) :
    read? (", ".intercalate (selectors.map Selector.text))
      = some (selectors.map Selector.parts) := by
  -- What follows a comma begins with a blank, so the rest of a list is read after one.
  suffices hblank : ∀ blank : List Char, (blank = [] ∨ blank = [' ']) →
      ((blank ++ (", ".intercalate (selectors.map Selector.text)).toList).splitOn ',').mapM parts?
        = some (selectors.map Selector.parts) from hblank [] (.inl rfl)
  induction selectors with
  | nil => exact absurd rfl hne
  | cons s selectors ih =>
    intro blank hblank
    have hs := h s List.mem_cons_self
    have hparts : parts? (blank ++ s.text.toList) = some s.parts := by
      rcases hblank with rfl | rfl
      · exact parts?_text hs
      · exact parts?_blank hs
    have hcomma : ',' ∉ blank ++ s.text.toList := by
      rcases hblank with rfl | rfl <;> simp [notMem_selector hs]
    cases selectors with
    | nil => simp [List.splitOn_eq_singleton hcomma, hparts]
    | cons t selectors =>
      have hrest := ih (List.cons_ne_nil _ _) (fun s hs => h s (List.mem_cons_of_mem _ hs)) [' ']
        (.inr rfl)
      have htext : blank ++ (", ".intercalate ((s :: t :: selectors).map Selector.text)).toList
          = (blank ++ s.text.toList) ++ ',' :: ([' ']
            ++ (", ".intercalate ((t :: selectors).map Selector.text)).toList) := by
        simp [String.intercalate_cons_cons]
      rw [htext, List.splitOn_append_cons_self, List.splitOn_eq_singleton hcomma,
        List.singleton_append, List.mapM_cons, hparts, hrest]
      rfl

end SelectorList
end AtomicCss

import AtomicCss.Proofs.StyleKeys

/-!
# Style keys are read as they were written

The parts of a key are told apart by separators that the value may hold itself. Nothing before the
value holds the separator of the value, and each part before it is free of the separators that are
looked for in it. So a key whose property, state and size are of the vocabulary gives back what it
was written from, and keys of different coordinates differ.
-/
namespace AtomicCss.StyleKey

/-- The names of the properties that keys are written for. -/
def propertyNames : List String :=
  DecorationProperty.all.map DecorationProperty.name ++ ScaleProperty.all.map ScaleProperty.name
    ++ ColorProperty.all.map ColorProperty.name ++ ["shadow"]

/-- A breakpoint that the value after it is told apart from. -/
def IsBreakpoint (b : String) : Prop :=
  b ≠ "" ∧ Text.occurs "__".toList b.toList = false ∧ b.toList.getLast? ≠ some '_'

instance (b : String) : Decidable (IsBreakpoint b) :=
  inferInstanceAs (Decidable (_ ∧ _ ∧ _))

namespace Coordinates

/-- The property, the state and the size are of the vocabulary. The value is any. -/
structure InVocabulary (c : Coordinates) : Prop where
  property : c.property ∈ propertyNames
  state : ∀ s, c.state = some s → ∃ t : InteractionState, t.name = s
  size : ∀ s, c.size = some s → isSizeToken s = true
  breakpoint : ∀ b, c.breakpoint = some b → IsBreakpoint b

/-- A state other than the one at rest. -/
def activeState (c : Coordinates) : Option String :=
  c.state.filter (· != InteractionState.rest.name)

/-- The state as it is written. In the selected scope the state at rest is, too. -/
def stateText (c : Coordinates) : Option String :=
  if c.controlState then c.state.map (InteractionState.selected.name ++ ":" ++ ·)
  else c.activeState

def tokens (c : Coordinates) : List String :=
  (if c.controlState then [InteractionState.selected.name] else []) ++ c.activeState.toList

/-- Whether the key is a reference. With a size it never is. -/
def isReference (c : Coordinates) : Bool := c.isRef && c.size.isNone

/-- The breakpoint as it is written, none without a size. -/
def sizedBreakpoint (c : Coordinates) : Option String := c.size.bind fun _ => c.breakpoint

def decoded (c : Coordinates) : Decoded where
  property := c.property
  stateTokens := c.tokens
  isRef := c.isReference
  size := c.size
  breakpoint := c.sizedBreakpoint
  value := valueText c.value
  rawState := c.stateText

def stem (c : Coordinates) : String :=
  match c.stateText with
  | some s => c.property ++ ((if c.isReference then "==" else "--") ++ s)
  | none => c.property

def sizeText (c : Coordinates) : String :=
  match c.size with
  | some s => sizePart s c.breakpoint
  | none => ""

namespace InVocabulary

variable {c : Coordinates} (hc : c.InVocabulary)
include hc

theorem known_size : Location.known c.size = c.size := by
  cases hsize : c.size with
  | none => rfl
  | some s =>
    have hs : s ≠ "" := by
      rintro rfl
      exact absurd (hc.size "" hsize) (by decide)
    simp [Location.known, hs]

theorem known_breakpoint : Location.known c.breakpoint = c.breakpoint := by
  cases hb : c.breakpoint with
  | none => rfl
  | some b => simp [Location.known, (hc.breakpoint b hb).1]

theorem filter_writtenState {state : Option String}
    (h : writtenState c.state c.controlState = .ok state) :
    state.filter (· != InteractionState.rest.name) = c.stateText ∧ active state = c.stateText := by
  cases hstate : c.state with
  | none =>
    cases hcontrol : c.controlState with
    | false =>
      simp [writtenState, hstate, hcontrol] at h
      simp [stateText, activeState, hstate, hcontrol, ← h, active, Location.known]
    | true =>
      simp [writtenState, hstate, hcontrol] at h
  | some s =>
    obtain ⟨t, rfl⟩ := hc.state s hstate
    cases hcontrol : c.controlState with
    | false =>
      simp [writtenState, hstate, hcontrol] at h
      rw [← h, stateText, activeState, hstate, hcontrol]
      cases t <;> decide
    | true =>
      rw [hstate, hcontrol] at h
      rw [stateText, hstate, hcontrol, if_pos rfl]
      cases t <;> cases h <;> decide

/-- A key is its parts in a row, and a reference has a state. -/
theorem eq_of_encode {key : String} (h : encode c = .ok key) :
    key = c.stem ++ (c.sizeText ++ ("__" ++ valueText c.value))
      ∧ (c.isReference = true → c.stateText.isSome = true) := by
  simp only [encode, bind_eq_ok, hc.known_size] at h
  obtain ⟨state, hstate, h⟩ := h
  obtain ⟨hfilter, hactive⟩ := hc.filter_writtenState hstate
  cases hsize : c.size with
  | some size =>
    -- With a size the key is no reference, even if one is asked for.
    have href : c.isReference = false := by simp [isReference, hsize]
    refine ⟨?_, by simp [href]⟩
    rw [hsize] at h
    dsimp only at h
    rw [hfilter] at h
    rw [stem, sizeText, hsize, href]
    cases htext : c.stateText with
    | some s =>
      rw [htext] at h
      simp [← pure_eq_ok.1 h, String.append_assoc]
    | none =>
      rw [htext] at h
      simp [← pure_eq_ok.1 h, String.append_assoc]
  | none =>
    have href : c.isReference = c.isRef := by simp [isReference, hsize]
    rw [hsize] at h
    dsimp only at h
    rw [hactive] at h
    rw [stem, sizeText, hsize, href]
    cases htext : c.stateText with
    | some s =>
      rw [htext] at h
      exact ⟨by simp [← pure_eq_ok.1 h, String.append_assoc], by simp⟩
    | none =>
      rw [htext] at h
      cases hisRef : c.isRef with
      | true =>
        -- A reference at rest is not written.
        rw [hisRef] at h
        cases h
      | false =>
        rw [hisRef] at h
        exact ⟨by simp [← pure_eq_ok.1 h], by simp⟩

theorem isPlain_property : IsPlain c.property := by
  have hall : ∀ p ∈ propertyNames, IsPlain p := by decide
  exact hall c.property hc.property

/-- The state as it is written holds no separator of the other parts. -/
theorem isPlain_stateText {s : String} (h : c.stateText = some s) : IsPlain s := by
  rw [stateText, activeState] at h
  cases hstate : c.state with
  | none => simp [hstate] at h
  | some state =>
    obtain ⟨t, rfl⟩ := hc.state state hstate
    rw [hstate] at h
    cases hcontrol : c.controlState with
    | false =>
      rw [hcontrol] at h
      cases t <;> cases h <;> decide
    | true =>
      rw [hcontrol] at h
      cases t <;> cases h <;> decide

theorem stateTokens_stateText {state : Option String}
    (h : writtenState c.state c.controlState = .ok state) :
    stateTokens (c.stateText.getD "") = c.tokens := by
  rw [stateText, tokens, activeState]
  cases hstate : c.state with
  | none =>
    cases hcontrol : c.controlState with
    | false => decide
    | true =>
      rw [hstate, hcontrol] at h
      cases h
  | some state =>
    obtain ⟨t, rfl⟩ := hc.state state hstate
    cases c.controlState <;> cases t <;> decide

/-- The property, the mark and the state are told apart. -/
theorem splitState_stem (href : c.isReference = true → c.stateText.isSome = true) :
    splitState c.stem = (c.property, c.isReference, c.stateText) := by
  have hplain := hc.isPlain_property
  rw [stem]
  cases htext : c.stateText with
  | none =>
    have hnot : c.isReference = false := by simpa [htext] using href
    rw [splitState_of_isPlain hplain, hnot]
  | some s =>
    cases c.isReference with
    | true => exact splitState_ref hplain
    | false => exact splitState_inline hplain (hc.isPlain_stateText htext)

/-- The property, the mark and the state hold no separator of a value or a size. -/
theorem notMem_stem : '_' ∉ c.stem.toList ∧ '+' ∉ c.stem.toList := by
  have hproperty := hc.isPlain_property.notMem
  rw [stem]
  cases htext : c.stateText with
  | none => exact ⟨hproperty.1, hproperty.2.1⟩
  | some s =>
    have hs := (hc.isPlain_stateText htext).notMem
    cases c.isReference <;> simp [hproperty, hs]

/-- The size and the breakpoint are told apart from what stands before them and from each other. -/
theorem splitSize_append :
    splitSize (c.stem ++ c.sizeText) = (c.stem, c.size, c.sizedBreakpoint) := by
  have hplus := hc.notMem_stem.2
  have hsized : ∀ part, splitSize (c.stem ++ ("++" ++ part))
      = (c.stem, some (sizeAndBreakpoint part).1, (sizeAndBreakpoint part).2) := by
    intro part
    have hcut : cutString "++" (c.stem ++ ("++" ++ part)) = some (c.stem, part) :=
      cutString_append_self ['+'] hplus part
    simp only [splitSize, hcut, sizeAndBreakpoint]
    cases cutString "::" part <;> rfl
  rw [sizeText, sizedBreakpoint]
  cases hsize : c.size with
  | none =>
    have hcut : cutString "++" c.stem = none := cutString_eq_none ['+'] hplus
    simp [splitSize, hcut]
  | some size =>
    have htoken := hc.size size hsize
    simp only [sizePart, hc.known_breakpoint]
    cases c.breakpoint with
    | none => simp [hsized, sizeAndBreakpoint_size htoken]
    | some b =>
      have hpart := sizeAndBreakpoint_append htoken b
      rw [String.append_assoc] at hpart
      simp [String.append_assoc, hsized, hpart]

/-- The value is told apart from what stands before it. -/
theorem cutString_value : cutString "__" (c.stem ++ (c.sizeText ++ ("__" ++ valueText c.value)))
    = some (c.stem ++ c.sizeText, valueText c.value) := by
  have hsize : cutString "__" (c.sizeText ++ ("__" ++ valueText c.value))
      = some (c.sizeText, valueText c.value) := by
    have hfront : ∀ front : String, '_' ∉ front.toList →
        cutString "__" (front ++ ("__" ++ valueText c.value)) = some (front, valueText c.value) :=
      fun _ h => cutString_append_self ['_'] h _
    rw [sizeText]
    cases hsize : c.size with
    | none => exact hfront "" (by decide)
    | some size =>
      obtain ⟨hmarked, hunmarked⟩ := notMem_of_isSizeToken (hc.size size hsize)
      simp only [sizePart, hc.known_breakpoint]
      cases hb : c.breakpoint with
      | none => exact hfront _ (by simpa using hunmarked)
      | some b =>
        obtain ⟨-, hdouble, hlast⟩ := hc.breakpoint b hb
        have hbreakpoint : cutString "__" (b ++ ("__" ++ valueText c.value))
            = some (b, valueText c.value) := by
          have hcut : Text.cut ['_', '_'] (b.toList ++ '_' :: '_' :: (valueText c.value).toList)
              = some (b.toList, (valueText c.value).toList) :=
            Text.cut_append_double hdouble hlast _
          simp [cutString, hcut]
        have hsized : '_' ∉ ("++" ++ size ++ "::").toList := by simpa using hmarked
        have hassoc : "++" ++ size ++ "::" ++ b ++ ("__" ++ valueText c.value)
            = "++" ++ size ++ "::" ++ (b ++ ("__" ++ valueText c.value)) := String.append_assoc
        rw [hassoc]
        refine (cutString_append ['_'] hsized _).trans ?_
        exact congrArg (Option.map _) hbreakpoint
  refine (cutString_append ['_'] hc.notMem_stem.1 _).trans ?_
  exact congrArg (Option.map _) hsize

end InVocabulary

variable {c : Coordinates}

/-- A key is read as it was written. -/
theorem decode_of_encode (hc : c.InVocabulary) {key : String} (h : encode c = .ok key) :
    decode key = .ok c.decoded := by
  obtain ⟨state, hstate, -⟩ := bind_eq_ok.1 h
  obtain ⟨rfl, href⟩ := hc.eq_of_encode h
  simp only [decode, hc.cutString_value, hc.splitSize_append, hc.splitState_stem href,
    hc.known_size, hc.stateTokens_stateText hstate]
  rfl

/-- Keys are read as they were written, and coordinates with one key agree in all that is
written. -/
theorem roundTrip (hc : c.InVocabulary) {key : String} (h : encode c = .ok key) :
    decode key = .ok c.decoded ∧ ∀ d : Coordinates, d.InVocabulary → encode d = .ok key →
      c.property = d.property ∧ c.stateText = d.stateText ∧ c.isReference = d.isReference
        ∧ c.size = d.size ∧ c.sizedBreakpoint = d.sizedBreakpoint
        ∧ valueText c.value = valueText d.value := by
  have hread := decode_of_encode hc h
  refine ⟨hread, fun d hd hkey => ?_⟩
  have hsame : c.decoded = d.decoded := Except.ok.inj (hread.symm.trans (decode_of_encode hd hkey))
  exact ⟨congrArg Decoded.property hsame, congrArg Decoded.rawState hsame,
    congrArg Decoded.isRef hsame, congrArg Decoded.size hsame,
    congrArg Decoded.breakpoint hsame, congrArg Decoded.value hsame⟩

/-- Coordinates whose breakpoint and value hold every separator they may. -/
def entangled (isRef : Bool) : Coordinates where
  property := ScaleProperty.boxWidth.name
  value := .text "4__b++c==d--e"
  state := some InteractionState.hover.name
  controlState := true
  isRef := isRef
  size := some "s:md:1"
  breakpoint := some "bp==x::y++_z--"

theorem inVocabulary_entangled (isRef : Bool) : (entangled isRef).InVocabulary where
  property := by
    change ScaleProperty.boxWidth.name ∈ propertyNames
    decide
  state := by
    rintro _ ⟨rfl⟩
    exact ⟨.hover, rfl⟩
  size := by
    rintro _ ⟨rfl⟩
    decide
  breakpoint := by
    rintro _ ⟨rfl⟩
    decide

theorem roundTrip_entangled :
    encode (entangled true)
        = .ok "boxWidth--selected:hover++s:md:1::bp==x::y++_z--__4__b++c==d--e"
      ∧ decode "boxWidth--selected:hover++s:md:1::bp==x::y++_z--__4__b++c==d--e"
        = .ok (entangled true).decoded
      ∧ (entangled true).isReference = (entangled false).isReference := by
  have hkey : ∀ isRef, encode (entangled isRef)
      = .ok "boxWidth--selected:hover++s:md:1::bp==x::y++_z--__4__b++c==d--e" := by
    intro isRef
    cases isRef <;> rfl
  obtain ⟨hread, hsame⟩ := roundTrip (inVocabulary_entangled true) (hkey true)
  obtain ⟨-, -, href, -⟩ := hsame (entangled false) (inVocabulary_entangled false) (hkey false)
  exact ⟨hkey true, hread, href⟩

end Coordinates
end AtomicCss.StyleKey

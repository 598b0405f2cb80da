import AtomicCss.Proofs.Agreement
import AtomicCss.Proofs.JsonBrackets
import AtomicCss.Proofs.NormalizedColors
import AtomicCss.Proofs.PaletteColors

/-!
# The rules of authored colors

A color goes into the text of a key, between the brackets at its end, and is read off this text
again for its rule. The text between the last brackets could be a part of the color only, but then
it would not be read as a list. So the rule of a key has the color, the states and the reference
mark that were authored.
-/
namespace AtomicCss

namespace Json

theorem exists_write_list (f : Layout) (depth : Nat) (items : List Value) :
    ∃ inside, (write f depth (.list items)).toList = '[' :: inside ++ [']'] := by
  cases items with
  | nil => exact ⟨[], by rw [write]; rfl⟩
  | cons v items =>
    rw [write, String.toList_append]
    simp only [String.append_assoc, String.toList_append]
    exact ⟨_, rfl⟩

end Json

namespace Rule

theorem colorOfJson_eq_ok {text : List Char} {invalid : RuleError} {hex : String} :
    colorOfJson text invalid = .ok hex
      ↔ ∃ v, Json.readChars text = .ok v ∧ Color.hexOfHsla v = .ok hex := by
  rw [colorOfJson]
  cases Json.readChars text with
  | error e => simp
  | ok v =>
    simp only [Except.ok.injEq, exists_eq_left']
    split <;> simp_all

/-- A character before which there is none of its kind opens at the latest what it opens later. -/
theorem eq_or_exists_of_append {c : Char} {front mid front' inside : List Char}
    (hfront : c ∉ front) (h : front ++ c :: mid = front' ++ c :: inside) :
    inside = mid ∨ ∃ before, mid = before ++ c :: inside := by
  rcases List.append_eq_append_iff.1 h with ⟨between, -, hbetween⟩ | ⟨between, rfl, hbetween⟩
  · cases between with
    | nil => exact .inl (List.cons.inj hbetween).2.symm
    | cons d before => exact .inr ⟨before, (List.cons.inj hbetween).2⟩
  · cases between with
    | nil => exact .inl (List.cons.inj hbetween).2
    | cons d before =>
      obtain rfl := (List.cons.inj hbetween).1
      exact absurd (by simp) hfront

/-- What is read between the brackets at the end of a key is the whole list there, if it is a list
as well. -/
theorem eq_of_bracketed? {front mid inside : List Char} {v w : Value} (hfront : '[' ∉ front)
    (h : bracketed? (front ++ ('[' :: mid ++ [']'])) = some inside)
    (hmid : Json.readChars ('[' :: mid ++ [']']) = .ok v)
    (hinside : Json.readChars ('[' :: inside ++ [']']) = .ok w) : inside = mid := by
  rw [← List.append_assoc] at h
  obtain ⟨hclosed, front', hsplit⟩ := exists_of_bracketed? h
  rcases eq_or_exists_of_append hfront hsplit with heq | ⟨before, rfl⟩
  · exact heq
  · exact absurd hinside (Json.not_readChars_of_append hclosed hmid)

end Rule

namespace AuthoredColor

/-- The states that the rule of a color asks for: `selected` if the color stands below it, and the
color's own state unless it is the one at rest. -/
def activeStates (c : AuthoredColor) : List ActiveState :=
  (if c.controlState then [.selected] else []) ++ (ActiveState.ofName? c.state.name).toList

theorem ofTokens_coordinates (c : AuthoredColor) (json : Value) (key : String) (isRef : Bool) :
    ActiveState.ofTokens key "style" isRef (c.coordinates json).tokens = .ok c.activeStates := by
  have hall : ∀ (s : InteractionState) (controlState : Bool),
      ActiveState.ofTokens key "style" isRef
        ((if controlState then [InteractionState.selected.name] else [])
          ++ ((some s.name).filter (· != InteractionState.rest.name)).toList)
        = .ok ((if controlState then [.selected] else [])
          ++ (ActiveState.ofName? s.name).toList) := by
    intro s controlState
    cases s <;> cases controlState <;> rfl
  exact hall c.state c.controlState

theorem ofName?_name (p : ColorProperty) : ColorProperty.ofName? p.name = some p := by
  cases p <;> rfl

/-- No bracket stands before the value. -/
theorem notMem_stem (c : AuthoredColor) (json : Value) :
    '[' ∉ ((c.coordinates json).stem ++ "__").toList := by
  have hproperty : ∀ p : ColorProperty, '[' ∉ p.name.toList := by
    intro p
    cases p <;> decide
  have hstate : ∀ s : InteractionState, '[' ∉ s.name.toList := by
    intro s
    cases s <;> decide
  have hwritten : ∀ s, (c.coordinates json).stateText = some s → '[' ∉ s.toList := by
    intro s hs
    rw [StyleKey.Coordinates.stateText] at hs
    split at hs
    · obtain rfl := Option.some.inj hs
      simpa using ⟨hstate .selected, hstate c.state⟩
    · obtain rfl := Option.some.inj (Option.filter_eq_some_iff.1 hs).1
      exact hstate c.state
  rw [StyleKey.Coordinates.stem]
  split
  · next s hs =>
    have hmark : '[' ∉ (if (c.coordinates json).isReference then "==" else "--").toList := by
      split <;> decide
    simpa [coordinates, hwritten s hs] using ⟨hproperty c.property, hmark⟩
  · simpa [coordinates] using hproperty c.property

variable {c : AuthoredColor} {e : Keys.Emission} {items : List Value} {hex className : String}
  {force : Bool} {r : Rule}

/-- The rule of a key has what was authored for the color of the key. -/
theorem ofColor_emit (h : c.emit = .ok e)
    (hlist : (Keys.unwrapRef c.value).1.json = .ok (.list items))
    (hhex : Color.hexOfHsla (.list items) = .ok hex)
    (hread : Json.read (StyleKey.jsonText (.list items)) = .ok (Value.list items).normalize)
    (hrule : Rule.ofColor force e.key className = .ok r) :
    ∃ selectors, Selector.ofStates className none (Keys.unwrapRef c.value).2 force c.activeStates
        = .ok selectors
      ∧ r = ⟨Rule.bodyOf selectors c.property.css hex, none⟩ := by
  obtain ⟨json, hjson, hkey, -⟩ := emit_eq_ok.1 h
  obtain rfl := Except.ok.inj (hlist.symm.trans hjson)
  have hvocabulary := c.inVocabulary_coordinates (.list items)
  simp only [Rule.ofColor, bind_eq_ok, pure_eq_ok, mapError_eq_ok, given_eq_ok] at hrule
  obtain ⟨inside, hinside, k, hk, p, hp, color, hcolor, states, hstates, selectors, hs, rfl⟩ :=
    hrule
  have hdecode := StyleKey.Coordinates.decode_of_encode hvocabulary hkey
  obtain rfl := Except.ok.inj (hk.symm.trans hdecode)
  obtain rfl : p = c.property := Option.some.inj (hp.symm.trans (ofName?_name c.property))
  obtain rfl := Except.ok.inj (hstates.symm.trans (c.ofTokens_coordinates _ _ _))
  obtain ⟨w, hw, hwhex⟩ := Rule.colorOfJson_eq_ok.1 hcolor
  suffices hvalue : w = (Value.list items).normalize by
    have hsame := Color.hexOfHsla_normalize hhex
    rw [← hvalue, hwhex] at hsame
    obtain rfl := Except.ok.inj hsame
    refine ⟨selectors, ?_, rfl⟩
    simpa [StyleKey.Coordinates.decoded, StyleKey.Coordinates.isReference, coordinates] using hs
  obtain ⟨mid, hmid⟩ := Json.exists_write_list .key 0 (Value.normalizeItems items)
  have htext : e.key = (c.coordinates (.list items)).stem ++ "__"
      ++ StyleKey.jsonText (.list items) := by
    have hsize : (c.coordinates (.list items)).sizeText = "" := rfl
    rw [(hvocabulary.eq_of_encode hkey).1, hsize, String.empty_append, String.append_assoc]
    rfl
  rw [htext, String.toList_append, StyleKey.jsonText, Json.text, Value.normalize, hmid] at hinside
  have hwhole : Json.readChars ('[' :: mid ++ [']']) = .ok (Value.list items).normalize := by
    rw [← hmid]
    exact hread
  obtain rfl := Rule.eq_of_bracketed? (c.notMem_stem _) hinside hwhole hw
  exact Except.ok.inj (hw.symm.trans hwhole)

end AuthoredColor
end AtomicCss

import AtomicCss.StyleKey.Encode
import AtomicCss.Proofs.Results
import AtomicCss.Proofs.Text

/-!
# Style keys and their coordinates

A key begins with its property, and a key without a state is read back coordinate by coordinate as
long as the value is cut off at the right place.
-/
namespace AtomicCss.StyleKey

/-- Every key begins with its property. -/
theorem startsWith_of_encode {c : Coordinates} {key : String} (h : encode c = .ok key) :
    key.startsWith c.property = true := by
  have hfront : ∃ rest, key = c.property ++ rest := by
    simp only [encode, bind_eq_ok] at h
    obtain ⟨state, -, h⟩ := h
    split at h
    · split at h
      · exact ⟨_, by rw [← pure_eq_ok.1 h, String.append_assoc, String.append_assoc,
          String.append_assoc]⟩
      · exact ⟨_, by rw [← pure_eq_ok.1 h, String.append_assoc]⟩
    · split at h
      · exact ⟨_, by rw [← pure_eq_ok.1 h, String.append_assoc, String.append_assoc]⟩
      · split at h
        · cases h
        · exact ⟨_, (pure_eq_ok.1 h).symm⟩
  obtain ⟨rest, rfl⟩ := hfront
  rw [String.startsWith_string_iff, String.toList_append]
  exact List.prefix_append _ _

theorem encode_stateless (property : String) (value : Value) :
    encode { property, value } = .ok (property ++ ("__" ++ valueText value)) := rfl

theorem encode_sized (property : String) (value : Value) {size : String} (hsize : size ≠ "")
    (breakpoint : Option String) :
    encode { property, value, size := some size, breakpoint }
      = .ok (property ++ sizePart size breakpoint ++ ("__" ++ valueText value)) := by
  have hknown : Location.known (some size) = some size := by
    simp [Location.known, hsize]
  simp only [encode, hknown]
  rfl

/-- A text without the characters that mark the parts of a key. -/
def IsPlain (s : String) : Prop := ∀ c ∈ s.toList, c ≠ '_' ∧ c ≠ '+' ∧ c ≠ '-' ∧ c ≠ '='

instance (s : String) : Decidable (IsPlain s) := List.decidableBAll _ s.toList

theorem cutString_append {c : Char} (sep : List Char) {front : String} (h : c ∉ front.toList)
    (s : String) : cutString (String.ofList (c :: sep)) (front ++ s)
      = (cutString (String.ofList (c :: sep)) s).map fun (a, b) => (front ++ a, b) := by
  simp only [cutString, String.toList_ofList, String.toList_append, Text.cut_append h,
    Option.map_map]
  congr 1
  funext p
  simp

theorem cutString_append_self {c : Char} (sep : List Char) {front : String}
    (h : c ∉ front.toList) (s : String) :
    cutString (String.ofList (c :: sep)) (front ++ (String.ofList (c :: sep) ++ s))
      = some (front, s) := by
  rw [cutString_append sep h, cutString, String.toList_append, String.toList_ofList,
    Text.cut_self (List.cons_ne_nil c sep)]
  simp

theorem cutString_eq_none {c : Char} (sep : List Char) {s : String} (h : c ∉ s.toList) :
    cutString (String.ofList (c :: sep)) s = none := by
  simp [cutString, Text.cut_eq_none h]

theorem prefix_of_cutString {sep s front rest : String}
    (h : cutString sep s = some (front, rest)) : front.toList <+: s.toList := by
  obtain ⟨⟨_, _⟩, hcut, heq⟩ := Option.map_eq_some_iff.1 h
  obtain ⟨rfl, rfl⟩ := Prod.mk.inj heq
  rw [String.toList_ofList, Text.eq_append_of_cut hcut, List.append_assoc]
  exact List.prefix_append _ _

theorem prefix_splitSize (head : String) : (splitSize head).1.toList <+: head.toList := by
  rw [splitSize]
  split
  · exact List.prefix_rfl
  · next h => split <;> exact prefix_of_cutString h

theorem prefix_splitState (head : String) : (splitState head).1.toList <+: head.toList := by
  rw [splitState]
  split
  · next h => exact prefix_of_cutString h
  · split
    · next h => exact prefix_of_cutString h
    · exact List.prefix_rfl

/-- A key begins with the property that is read off it. -/
theorem startsWith_of_decode {key : String} {k : Decoded} (h : decode key = .ok k) :
    key.startsWith k.property = true := by
  rw [decode] at h
  split at h
  · cases h
  · next head value hcut =>
    obtain rfl := Except.ok.inj h
    rw [String.startsWith_string_iff]
    exact (prefix_splitState _).trans ((prefix_splitSize head).trans (prefix_of_cutString hcut))

theorem splitState_of_isPlain {head : String} (h : IsPlain head) :
    splitState head = (head, false, none) := by
  have heq : cutString "==" head = none :=
    cutString_eq_none ['='] fun hm => (h _ hm).2.2.2 rfl
  have hdash : cutString "--" head = none :=
    cutString_eq_none ['-'] fun hm => (h _ hm).2.2.1 rfl
  rw [splitState, heq, hdash]

theorem IsPlain.notMem {head : String} (h : IsPlain head) :
    '_' ∉ head.toList ∧ '+' ∉ head.toList ∧ '=' ∉ head.toList :=
  ⟨fun hm => (h _ hm).1 rfl, fun hm => (h _ hm).2.1 rfl, fun hm => (h _ hm).2.2.2 rfl⟩

theorem splitState_inline {property state : String} (hp : IsPlain property) (hs : IsPlain state) :
    splitState (property ++ ("--" ++ state)) = (property, false, some state) := by
  have hdash : cutString "--" (property ++ ("--" ++ state)) = some (property, state) :=
    cutString_append_self ['-'] (fun hm => (hp _ hm).2.2.1 rfl) state
  have heq : cutString "==" (property ++ ("--" ++ state)) = none := by
    refine cutString_eq_none ['='] fun hm => ?_
    simp only [String.toList_append, List.mem_append] at hm
    rcases hm with hm | hm | hm
    · exact hp.notMem.2.2 hm
    · exact absurd hm (by decide)
    · exact hs.notMem.2.2 hm
  simp [splitState, heq, hdash]

theorem splitState_ref {property state : String} (hp : IsPlain property) :
    splitState (property ++ ("==" ++ state)) = (property, true, some state) := by
  have heq : cutString "==" (property ++ ("==" ++ state)) = some (property, state) :=
    cutString_append_self ['='] hp.notMem.2.2 state
  simp [splitState, heq]

def sizeAndBreakpoint (part : String) : String × Option String :=
  match cutString "::" part with
  | none => (part, none)
  | some (size, breakpoint) => (size, some breakpoint)

theorem isSizeToken_of_mem {size : String} (h : size ∈ elementSizes) : isSizeToken size = true := by
  simp [isSizeToken, h]

theorem mem_of_isSizeToken {size : String} (h : isSizeToken size = true) :
    size ∈ allSizes :: elementSizes := by
  simpa [isSizeToken] using h

theorem sizeAndBreakpoint_append {size : String} (hsize : isSizeToken size = true)
    (breakpoint : String) :
    sizeAndBreakpoint ((size ++ "::") ++ breakpoint) = (size, some breakpoint) := by
  have hcut : ∀ rest, Text.cut "::".toList (size.toList ++ ':' :: ':' :: rest)
      = some (size.toList, rest) := by
    intro rest
    replace hsize := mem_of_isSizeToken hsize
    simp only [elementSizes, List.mem_cons, List.not_mem_nil, or_false] at hsize
    rcases hsize with rfl | rfl | rfl | rfl | rfl | rfl | rfl | rfl | rfl | rfl | rfl | rfl
    all_goals rfl
  have htext : ((size ++ "::") ++ breakpoint).toList
      = size.toList ++ ':' :: ':' :: breakpoint.toList := by simp
  rw [sizeAndBreakpoint, cutString, htext, hcut]
  simp

theorem sizeAndBreakpoint_size {size : String} (hsize : isSizeToken size = true) :
    sizeAndBreakpoint size = (size, none) := by
  have hall : ∀ size ∈ allSizes :: elementSizes, sizeAndBreakpoint size = (size, none) := by decide
  exact hall size (mem_of_isSizeToken hsize)

theorem notMem_of_isSizeToken {size : String} (hsize : isSizeToken size = true) :
    '_' ∉ (size ++ "::").toList ∧ '_' ∉ size.toList := by
  have hall : ∀ size ∈ allSizes :: elementSizes,
      '_' ∉ (size ++ "::").toList ∧ '_' ∉ size.toList := by decide
  exact hall size (mem_of_isSizeToken hsize)

theorem decode_stateless {property : String} (h : IsPlain property) (value : String) :
    decode (property ++ ("__" ++ value)) = .ok
      { property, stateTokens := [], isRef := false, size := none, breakpoint := none, value
        rawState := none } := by
  have hcut : cutString "__" (property ++ ("__" ++ value)) = some (property, value) :=
    cutString_append_self ['_'] h.notMem.1 value
  have hsize : cutString "++" property = none := cutString_eq_none ['+'] h.notMem.2.1
  simp only [decode, hcut, splitSize, hsize, splitState_of_isPlain h]
  rfl

theorem decode_inline {property state : String} (hp : IsPlain property) (hs : IsPlain state)
    (value : String) : decode (property ++ ("--" ++ state) ++ ("__" ++ value)) = .ok
      { property, stateTokens := stateTokens state, isRef := false, size := none
        breakpoint := none, value, rawState := some state } := by
  have hstem : '_' ∉ (property ++ ("--" ++ state)).toList
      ∧ '+' ∉ (property ++ ("--" ++ state)).toList := by
    simp [hp.notMem, hs.notMem]
  have hcut : cutString "__" (property ++ ("--" ++ state) ++ ("__" ++ value))
      = some (property ++ ("--" ++ state), value) := cutString_append_self ['_'] hstem.1 value
  have hsize : cutString "++" (property ++ ("--" ++ state)) = none :=
    cutString_eq_none ['+'] hstem.2
  simp only [decode, hcut, splitSize, hsize, splitState_inline hp hs]
  rfl

theorem decode_sized {property : String} (h : IsPlain property) (rest : String) :
    decode (property ++ ("++" ++ rest)) =
      match cutString "__" rest with
      | none => .error (.missingValue (property ++ ("++" ++ rest)))
      | some (part, value) => .ok
        { property, stateTokens := [], isRef := false
          size := Location.known (some (sizeAndBreakpoint part).1)
          breakpoint := (sizeAndBreakpoint part).2, value, rawState := none } := by
  have hcut : cutString "__" (property ++ ("++" ++ rest))
      = (cutString "__" rest).map fun (a, b) => (property ++ ("++" ++ a), b) := by
    refine (cutString_append ['_'] (fun hm => (h _ hm).1 rfl) _).trans ?_
    rw [show cutString (String.ofList ('_' :: ['_'])) ("++" ++ rest) = _ from
      cutString_append ['_'] (by decide : '_' ∉ "++".toList) rest, Option.map_map]
    rfl
  rw [decode, hcut]
  cases hrest : cutString "__" rest with
  | none => rfl
  | some m =>
    obtain ⟨part, value⟩ := m
    have hsize : cutString "++" (property ++ ("++" ++ part)) = some (property, part) :=
      cutString_append_self ['+'] (fun hm => (h _ hm).2.1 rfl) part
    simp only [Option.map_some, splitSize, hsize]
    rw [sizeAndBreakpoint]
    cases cutString "::" part with
    | none => simp only [splitState_of_isPlain h]; rfl
    | some m => simp only [splitState_of_isPlain h]; rfl

end AtomicCss.StyleKey

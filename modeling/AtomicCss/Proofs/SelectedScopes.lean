import AtomicCss.Proofs.EffectKeys
import AtomicCss.Proofs.NamedStates

/-!
# The scope under `selected`

A map of colors under `selected` is walked state by state if it names the state at rest, and each of
its colors then has one key under its own label. A map that names other states only is itself taken
for a color and written into a key of the selected state.
-/
namespace AtomicCss

/-- What is not looked for may be left out. -/
theorem Document.get?_filter {p : Scalar → Bool} {k : String} (hk : p (.text k) = true)
    (members : List (Scalar × Document)) :
    get? (members.filter fun m => p m.1) k = get? members k := by
  induction members with
  | nil => rfl
  | cons m members ih =>
    obtain ⟨j, d⟩ := m
    rw [List.filter_cons]
    cases j with
    | text j =>
      by_cases hj : j = k
      · simp [hj, hk, get?]
      · split <;> simp [get?, hj, ih]
    | _ => split <;> exact ih

/-- A state below `selected` is always written. -/
theorem StyleKey.encode_control {s : InteractionState} (hs : s ∈ InteractionState.control)
    (property : String) (value : Value) (isRef : Bool) :
    encode { property, value, isRef, controlState := true, state := some s.name }
      = .ok (property ++ (if isRef then "==" else "--") ++ selectedLabel s
        ++ ("__" ++ valueText value)) := by
  have hactive : active (some (selectedLabel s)) = some (selectedLabel s) := by
    cases s <;> rfl
  simp only [encode, writtenState_control hs, Location.known, Option.filter_none]
  simp only [bind, Except.bind, hactive]
  rfl

namespace Keys

/-- A color: what can be written into a key, by itself or wrapped as a reference. -/
def IsColor (d : Document) : Prop := ∃ json, (unwrapRef d).1.json = .ok json

/-- A state map but for what it has under `selected`. -/
def besidesSelected (states : List (Scalar × Document)) : List (Scalar × Document) :=
  states.filter fun m => !NamedState.isSelected m.1

/-- The key of a color in a state below `selected`, with all it is filed under. -/
structure IsControlKey (spot : PaletteSpot) (s : InteractionState) (color : Document)
    (e : Emission) : Prop where
  palette : e.palette = spot.palette
  role : e.role = spot.role
  track : e.track = spot.track
  label : e.label = selectedLabel s
  key : ∃ json, (unwrapRef color).1.json = .ok json
    ∧ e.key = spot.property ++ (if (unwrapRef color).2 then "==" else "--") ++ selectedLabel s
      ++ ("__" ++ StyleKey.jsonText json)

/-- The map under `selected` is walked as a scope, beside any other states that can be walked: each
color in it has one key, under the label of its state, and no key stands under `selected`. -/
def EmitsScope (spot : PaletteSpot) (states scope : List (Scalar × Document)) : Prop :=
  ∀ others, emitTrack spot (besidesSelected states) = .ok others →
    ∃ es, emitTrack spot states = .ok es
      ∧ (∀ s ∈ InteractionState.control, List.Forall₂ (IsControlKey spot s)
          (Document.member? scope s.name).toList (es.filter (·.label == selectedLabel s)))
      ∧ ∀ e ∈ es, e.label ≠ InteractionState.selected.name

variable {spot : PaletteSpot} {states scope : List (Scalar × Document)}

/-- A key of a control state is written as soon as the color can be. -/
theorem emit_control {s : InteractionState} (hs : s ∈ InteractionState.control) {color : Document}
    (h : IsColor color) : ∃ e, emit spot s true color = .ok e ∧ IsControlKey spot s color e := by
  obtain ⟨json, hjson⟩ := h
  have hkey := StyleKey.encode_control hs spot.property (.text (StyleKey.jsonText json))
    (unwrapRef color).2
  refine ⟨⟨spot.palette, spot.role, selectedLabel s, spot.track, _⟩, ?_,
    ⟨rfl, rfl, rfl, rfl, json, hjson, rfl⟩⟩
  simp only [emit, colorText, hjson, bind_eq_ok, mapError_eq_ok, pure_eq_ok]
  exact ⟨_, ⟨json, rfl, rfl⟩, _, hkey, rfl⟩

theorem label_of_emit {s : InteractionState} {controlState : Bool} {color : Document}
    {e : Emission} (h : emit spot s controlState color = .ok e) :
    e.label = if controlState then selectedLabel s else s.name := by
  simp only [emit, bind_eq_ok, pure_eq_ok] at h
  obtain ⟨_, -, _, -, rfl⟩ := h
  rfl

theorem get?_besidesSelected {s : InteractionState} (hs : s ≠ .selected) :
    Document.get? (besidesSelected states) s.name = Document.get? states s.name := by
  refine Document.get?_filter (p := fun name => !NamedState.isSelected name) ?_ states
  cases s <;> first | rfl | exact absurd rfl hs

theorem emitState_besidesSelected {s : InteractionState} (hs : s ≠ .selected) :
    emitState spot (besidesSelected states) s = emitState spot states s := by
  rw [emitState, emitState, Document.member?, Document.member?, get?_besidesSelected hs]

theorem emitTrack_eq_ok {es : List Emission} : emitTrack spot states = .ok es
    ↔ (∀ m ∈ states, isState m.1 = true)
      ∧ ∃ parts, InteractionState.inPalette.mapM (emitState spot states) = .ok parts
        ∧ parts.flatten = es := by
  rw [emitTrack]
  split
  · next m hm =>
    have hunknown := List.find?_some hm
    have hmem := List.mem_of_find?_eq_some hm
    constructor
    · rintro ⟨⟩
    · rintro ⟨hknown, -⟩
      simp [hknown _ hmem] at hunknown
  · next hnone =>
    have hknown : ∀ m ∈ states, isState m.1 = true := by simpa using hnone
    simp only [bind_eq_ok, pure_eq_ok]
    exact ⟨fun h => ⟨hknown, h⟩, fun h => h.2⟩

/-- A scope with a color at rest has its colors, state by state. -/
theorem colorsIn_selected
    (hselected : Document.get? states InteractionState.selected.name = some (.map scope))
    (hrest : hasRest (.map scope) = true) : colorsIn states .selected
      = InteractionState.control.filterMap fun s =>
        (Document.member? scope s.name).map fun color => ⟨s, true, color⟩ := by
  have hmember : Document.member? states InteractionState.selected.name = some (.map scope) :=
    Document.member?_eq_some.2 ⟨hselected, rfl⟩
  rw [colorsIn, hmember]
  simp [hrest, Document.map?]

theorem colorsIn_selected_restless
    (hselected : Document.get? states InteractionState.selected.name = some (.map scope))
    (hrest : hasRest (.map scope) = false) :
    colorsIn states .selected = [⟨.selected, false, .map scope⟩] := by
  have hmember : Document.member? states InteractionState.selected.name = some (.map scope) :=
    Document.member?_eq_some.2 ⟨hselected, rfl⟩
  rw [colorsIn, hmember]
  simp [hrest]

theorem selectedLabel_ne_name (s t : InteractionState) : t.name ≠ selectedLabel s := by
  cases s <;> cases t <;> decide

theorem selectedLabel_injective {s t : InteractionState} (h : selectedLabel t = selectedLabel s) :
    t = s := by
  revert h
  cases s <;> cases t <;> decide

def labelOf (c : StateColor) : String :=
  if c.controlState then selectedLabel c.state else c.state.name

theorem filter_colorsIn_of_ne {s t : InteractionState} (ht : t ≠ .selected) :
    (colorsIn states t).filter (fun c => labelOf c == selectedLabel s) = [] := by
  rw [List.filter_eq_nil_iff]
  intro c hc
  rcases NamedState.mem_colorsIn.1 hc with ⟨hplain, -⟩ | ⟨-, hselected, -⟩
  · simp [labelOf, hplain, selectedLabel_ne_name]
  · exact absurd hselected ht

/-- The colors under a label of the scope are the one that the scope has for the state. -/
theorem filter_colors_control
    (hselected : Document.get? states InteractionState.selected.name = some (.map scope))
    (hrest : hasRest (.map scope) = true) {s : InteractionState}
    (hs : s ∈ InteractionState.control) :
    (InteractionState.inPalette.flatMap (colorsIn states)).filter
        (fun c => labelOf c == selectedLabel s)
      = ((Document.member? scope s.name).map fun color => ⟨s, true, color⟩).toList := by
  have hscope : (InteractionState.inPalette.flatMap (colorsIn states)).filter
      (fun c => labelOf c == selectedLabel s)
        = (colorsIn states .selected).filter fun c => labelOf c == selectedLabel s := by
    simp [InteractionState.inPalette, filter_colorsIn_of_ne]
  have hstate : ∀ t (color : Document),
      (labelOf ⟨t, true, color⟩ == selectedLabel s) = (t == s) := by
    intro t _
    rw [Bool.eq_iff_iff, beq_iff_eq, beq_iff_eq]
    exact ⟨selectedLabel_injective, congrArg selectedLabel⟩
  rw [hscope, colorsIn_selected hselected hrest, List.filter_filterMap]
  simp only [Option.filter_map, Function.comp_def, hstate]
  simp only [InteractionState.control, List.mem_cons, List.not_mem_nil, or_false] at hs
  cases hcolor : Document.member? scope s.name
  all_goals
    rcases hs with rfl | rfl | rfl | rfl <;> simp [InteractionState.control, hcolor]

/-- A scope with a color at rest is walked if the states beside it are. -/
theorem exists_emitTrack
    (hselected : Document.get? states InteractionState.selected.name = some (.map scope))
    (hcolors : ∀ m ∈ scope, IsColor m.2) (hrest : hasRest (.map scope) = true)
    {others : List Emission} (hothers : emitTrack spot (besidesSelected states) = .ok others) :
    ∃ es, emitTrack spot states = .ok es := by
  obtain ⟨hknown, parts, hparts, -⟩ := emitTrack_eq_ok.1 hothers
  have hstates : ∀ m ∈ states, isState m.1 = true := by
    intro m hm
    cases hname : NamedState.isSelected m.1 with
    | true =>
      rw [NamedState.isSelected_eq.1 hname]
      rfl
    | false => exact hknown m (List.mem_filter.2 ⟨hm, by simp [hname]⟩)
  have hwalked : ∀ s ∈ InteractionState.inPalette, ∃ es, emitState spot states s = .ok es := by
    intro s hs
    by_cases hne : s = .selected
    · rw [hne, emitState_eq, colorsIn_selected hselected hrest]
      refine exists_mapM_ok fun c hc => ?_
      obtain ⟨t, ht, hcolor⟩ := List.mem_filterMap.1 hc
      obtain ⟨color, hmember, rfl⟩ := Option.map_eq_some_iff.1 hcolor
      have hmem := Document.mem_of_get? (Document.member?_eq_some.1 hmember).1
      obtain ⟨e, he, -⟩ := emit_control ht (hcolors _ hmem)
      exact ⟨e, he⟩
    · obtain ⟨es, -, hes⟩ := exists_of_mapM_ok hparts hs
      exact ⟨es, emitState_besidesSelected hne ▸ hes⟩
  obtain ⟨parts, hparts⟩ := exists_mapM_ok hwalked
  exact ⟨parts.flatten, emitTrack_eq_ok.2 ⟨hstates, parts, hparts, rfl⟩⟩

/-- The keys under a label of the scope are those of the scope's color in the state. -/
theorem forall₂_control
    (hselected : Document.get? states InteractionState.selected.name = some (.map scope))
    (hcolors : ∀ m ∈ scope, IsColor m.2) (hrest : hasRest (.map scope) = true)
    {es : List Emission} (hes : emitTrack spot states = .ok es) {s : InteractionState}
    (hs : s ∈ InteractionState.control) :
    List.Forall₂ (IsControlKey spot s) (Document.member? scope s.name).toList
      (es.filter (·.label == selectedLabel s)) := by
  have hlabel : ∀ (c : StateColor) (e : Emission),
      emit spot c.state c.controlState c.value = .ok e →
        ((labelOf c == selectedLabel s) = true ↔ (e.label == selectedLabel s) = true) := by
    intro c e hce
    rw [label_of_emit hce, labelOf]
  have hkeys := List.rel_filter (p := fun c => labelOf c == selectedLabel s)
    (q := fun e => e.label == selectedLabel s) (fun c e hce => hlabel c e hce)
    (mapM_eq_ok.1 (mapM_of_emitTrack hes))
  rw [filter_colors_control hselected hrest hs] at hkeys
  cases hmember : Document.member? scope s.name with
  | none =>
    rw [hmember] at hkeys
    rw [List.forall₂_nil_left_iff.1 hkeys]
    exact .nil
  | some color =>
    rw [hmember] at hkeys
    obtain ⟨e, rest, hemit, hnil, hfiltered⟩ := List.forall₂_cons_left_iff.1 hkeys
    have hmem := Document.mem_of_get? (Document.member?_eq_some.1 hmember).1
    obtain ⟨e', he', hcontrol⟩ := emit_control hs (hcolors _ hmem)
    obtain rfl := Except.ok.inj (hemit.symm.trans he')
    rw [hfiltered, List.forall₂_nil_left_iff.1 hnil]
    exact .cons hcontrol .nil

/-- A map of colors under `selected` is walked as a scope exactly if it names the state at rest. -/
theorem emitsScope_iff
    (hselected : Document.get? states InteractionState.selected.name = some (.map scope))
    (hcolors : ∀ m ∈ scope, IsColor m.2) : EmitsScope spot states scope
      ↔ ∀ others, emitTrack spot (besidesSelected states) = .ok others →
        hasRest (.map scope) = true := by
  constructor
  · intro h others hothers
    obtain ⟨es, hes, -, hlabels⟩ := h others hothers
    by_contra hrest
    -- The map is a color itself, and its key stands under `selected`.
    have hcolor : ⟨.selected, false, .map scope⟩
        ∈ InteractionState.inPalette.flatMap (colorsIn states) := by
      refine List.mem_flatMap.2 ⟨.selected, by decide, ?_⟩
      rw [colorsIn_selected_restless hselected (Bool.eq_false_iff.2 hrest)]
      exact List.mem_singleton_self _
    obtain ⟨e, he, hemit⟩ := exists_of_mapM_ok (mapM_of_emitTrack hes) hcolor
    exact hlabels e he (label_of_emit hemit)
  · intro h others hothers
    have hrest := h others hothers
    obtain ⟨es, hes⟩ := exists_emitTrack hselected hcolors hrest hothers
    refine ⟨es, hes, fun s hs => forall₂_control hselected hcolors hrest hes hs, fun e he => ?_⟩
    obtain ⟨c, hc, hemit⟩ := (mem_mapM_ok (mapM_of_emitTrack hes)).1 he
    rw [label_of_emit hemit]
    obtain ⟨s, -, hc⟩ := List.mem_flatMap.1 hc
    rcases NamedState.mem_colorsIn.1 hc with ⟨hplain, rfl, hmember, hcolor⟩ | ⟨hbelow, -⟩
    · rw [hplain, if_neg Bool.false_ne_true]
      intro hname
      obtain hs : c.state = .selected := InteractionState.name_injective hname
      rw [hs, Document.member?_eq_some, hselected] at hmember
      obtain ⟨hvalue, -⟩ := hmember
      exact hcolor ⟨hs, Option.some.inj hvalue ▸ hrest⟩
    · rw [hbelow, if_pos rfl]
      exact (selectedLabel_ne_name _ _).symm

def primaryBox : PaletteSpot :=
  { palette := "brand", property := "boxColor", role := "primary", track := .soft }

theorem emitsScope_hoverScope :
    (emitTrack primaryBox (besidesSelected (boxStates hoverScope))).toOption.map
        (·.map (·.key)) = some ["boxColor__[0,0,0,1]"]
      ∧ Document.get? (boxStates hoverScope) "selected" = some (.map hoverScope)
      ∧ (∀ m ∈ hoverScope, IsColor m.2)
      ∧ EmitsScope primaryBox (boxStates hoverScope) hoverScope := by
  have hselected : Document.get? (boxStates hoverScope) "selected" = some (.map hoverScope) := rfl
  have hblack : IsColor black := ⟨_, rfl⟩
  have hcolors : ∀ m ∈ hoverScope, IsColor m.2 := by
    intro m hm
    simp only [hoverScope, List.mem_cons, List.not_mem_nil, or_false] at hm
    rcases hm with rfl | rfl
    · exact hblack
    · exact ⟨_, rfl⟩
  refine ⟨by decide +kernel, hselected, hcolors, ?_⟩
  exact (emitsScope_iff hselected hcolors).2 fun _ _ => rfl

/-- A state map with black on hover below `selected`, and no color there at rest. -/
def restlessStates : List (Scalar × Document) :=
  [(.text "selected", .map [(.text "hover", black)])]

/-- The map is written into a key of the selected state. -/
theorem not_emitsScope_restless :
    ¬EmitsScope primaryBox restlessStates [(.text "hover", black)] := by
  intro h
  obtain ⟨es, hes, -, hlabels⟩ := h [] rfl
  have hlabel : (emitTrack primaryBox restlessStates).toOption.map (·.map (·.label))
      = some ["selected"] := by decide +kernel
  rw [hes] at hlabel
  obtain ⟨e, he, hselected⟩ := List.map_eq_singleton_iff.1 (Option.some.inj hlabel)
  exact hlabels e (he ▸ List.mem_singleton_self e) hselected

end Keys
end AtomicCss

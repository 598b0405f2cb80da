import AtomicCss.Proofs.Matched
import AtomicCss.Proofs.PaletteColors

/-!
# The states that palettes name

A state map names interaction states, and a map with a color at rest under `selected` names states
below it. A name in a state map that is no state is refused. Below `selected` only the control
states are looked up, so that a color under any other name there has no key and is not reported. All
other colors have one key each, under their own label.
-/
namespace AtomicCss

/-- A member of a state map, or of the map under `selected` in one. -/
structure NamedState where
  /-- The state is named below `selected`. -/
  below : Bool
  name : Scalar
  value : Document

namespace NamedState

def isSelected : Scalar → Bool
  | .text s => s == InteractionState.selected.name
  | _ => false

/-- What a member of a state map names. A map under `selected` that has a color at rest stands for
the states it names itself. -/
def ofMember (m : Scalar × Document) : List NamedState :=
  if isSelected m.1 && Keys.hasRest m.2 then
    (m.2.map?.getD []).map fun (name, value) => ⟨true, name, value⟩
  else [⟨false, m.1, m.2⟩]

def ofStates (states : List (Scalar × Document)) : List NamedState := states.flatMap ofMember

/-- The state that a name stands for. Below `selected` there are the control states only. -/
def state? (n : NamedState) : Option InteractionState :=
  match n.name with
  | .text s => (InteractionState.ofName? s).filter fun s =>
    !n.below || InteractionState.control.contains s
  | _ => none

def label (n : NamedState) : String := (if n.below then "selected:" else "") ++ n.name.spoken

/-- Whether a color is given for a state that can be written into a key. -/
def isWritten (n : NamedState) : Bool := !n.value.isNull && n.state?.isSome

def ofColor (c : StateColor) : NamedState := ⟨c.controlState, .text c.state.name, c.value⟩

end NamedState

structure PlacedState extends NamedState where
  spot : Keys.PaletteSpot

namespace PlacedState

def ofRole (palette property role : String) (d : Document) : List PlacedState :=
  Track.all.flatMap fun track => (NamedState.ofStates (Keys.trackStates d track)).map fun n =>
    { n with spot := { palette, property, role, track } }

def ofProperty (palette property : String) (entry : Document) : List PlacedState :=
  (entry.map?.getD []).flatMap fun (role, d) => ofRole palette property role.spoken d

def ofPalettes (palettes : Dict Document) : List PlacedState :=
  palettes.flatMap fun (palette, properties) => (properties.map?.getD []).flatMap
    fun (property, entry) => ofProperty palette property.spoken entry

def HasKey (n : PlacedState) (e : Keys.Emission) : Prop :=
  ∃ s, n.state? = some s ∧ Keys.emit n.spot s n.below n.value = .ok e

end PlacedState

namespace NamedState

open Keys

/-- A map has no name twice, nor has the map under `selected` in it. -/
structure DistinctNames (states : List (Scalar × Document)) : Prop where
  nodup : (states.map Prod.fst).Nodup
  below : ∀ scope, (.text InteractionState.selected.name, .map scope) ∈ states →
    (scope.map Prod.fst).Nodup

variable {states : List (Scalar × Document)}

theorem isSelected_eq {name : Scalar} :
    isSelected name = true ↔ name = .text InteractionState.selected.name := by
  cases name <;> simp [isSelected]

theorem mem_ofMember {m : Scalar × Document} {n : NamedState} : n ∈ ofMember m ↔
    (n.below = false ∧ m = (n.name, n.value)
        ∧ ¬(isSelected n.name = true ∧ hasRest n.value = true))
      ∨ n.below = true ∧ ∃ scope, m = (.text InteractionState.selected.name, .map scope)
          ∧ hasRest (.map scope) = true ∧ (n.name, n.value) ∈ scope := by
  obtain ⟨below, name, value⟩ := n
  obtain ⟨name', value'⟩ := m
  rw [ofMember]
  split
  · next hrest =>
    rw [Bool.and_eq_true, isSelected_eq] at hrest
    obtain ⟨rfl, hrest⟩ := hrest
    constructor
    · intro hn
      obtain ⟨⟨k, v⟩, hk, heq⟩ := List.mem_map.1 hn
      cases heq
      cases value' with
      | map scope => exact .inr ⟨rfl, scope, rfl, hrest, hk⟩
      | scalar _ | list _ | set _ | circle => cases hk
    · rintro (⟨-, heq, hnot⟩ | ⟨hbelow, scope, heq, -, hmem⟩)
      · cases heq
        exact absurd ⟨isSelected_eq.2 rfl, hrest⟩ hnot
      · cases heq
        cases hbelow
        exact List.mem_map.2 ⟨_, hmem, rfl⟩
  · next hrest =>
    rw [Bool.and_eq_true] at hrest
    constructor
    · intro hn
      cases List.mem_singleton.1 hn
      exact .inl ⟨rfl, rfl, hrest⟩
    · rintro (⟨hbelow, heq, -⟩ | ⟨-, scope, heq, hscope, -⟩)
      · cases heq
        cases hbelow
        exact List.mem_singleton_self _
      · cases heq
        exact absurd ⟨isSelected_eq.2 rfl, hscope⟩ hrest

theorem mem_ofStates {n : NamedState} : n ∈ ofStates states ↔
    (n.below = false ∧ (n.name, n.value) ∈ states
        ∧ ¬(isSelected n.name = true ∧ hasRest n.value = true))
      ∨ n.below = true ∧ ∃ scope, (.text InteractionState.selected.name, .map scope) ∈ states
          ∧ hasRest (.map scope) = true ∧ (n.name, n.value) ∈ scope := by
  simp only [ofStates, List.mem_flatMap, mem_ofMember]
  constructor
  · rintro ⟨m, hm, ⟨hbelow, rfl, hrest⟩ | ⟨hbelow, scope, rfl, hrest, hmem⟩⟩
    · exact .inl ⟨hbelow, hm, hrest⟩
    · exact .inr ⟨hbelow, scope, hm, hrest, hmem⟩
  · rintro (⟨hbelow, hm, hrest⟩ | ⟨hbelow, scope, hm, hrest, hmem⟩)
    · exact ⟨_, hm, .inl ⟨hbelow, rfl, hrest⟩⟩
    · exact ⟨_, hm, .inr ⟨hbelow, scope, rfl, hrest, hmem⟩⟩

theorem mem_colorsIn {c : StateColor} {s : InteractionState} : c ∈ colorsIn states s ↔
    (c.controlState = false ∧ c.state = s ∧ Document.member? states s.name = some c.value
        ∧ ¬(s = .selected ∧ hasRest c.value = true))
      ∨ c.controlState = true ∧ s = .selected
        ∧ ∃ value, Document.member? states s.name = some value ∧ hasRest value = true
          ∧ c.state ∈ InteractionState.control
          ∧ Document.member? (value.map?.getD []) c.state.name = some c.value := by
  obtain ⟨state, controlState, value⟩ := c
  rw [colorsIn]
  cases Document.member? states s.name with
  | none => simp
  | some found =>
    dsimp only
    split
    · next hrest =>
      rw [Bool.and_eq_true, decide_eq_true_eq] at hrest
      simp only [List.mem_filterMap, Option.map_eq_some_iff, Option.some.injEq]
      constructor
      · rintro ⟨sub, hsub, color, hcolor, heq⟩
        cases heq
        exact .inr ⟨rfl, hrest.1, found, rfl, hrest.2, hsub, hcolor⟩
      · rintro (⟨-, -, rfl, hnot⟩ | ⟨rfl, -, _, rfl, -, hsub, hcolor⟩)
        · exact absurd hrest hnot
        · exact ⟨state, hsub, value, hcolor, rfl⟩
    · next hrest =>
      rw [Bool.and_eq_true, decide_eq_true_eq] at hrest
      simp only [List.mem_singleton, StateColor.mk.injEq, Option.some.injEq]
      constructor
      · rintro ⟨rfl, rfl, rfl⟩
        exact .inl ⟨rfl, rfl, rfl, hrest⟩
      · rintro (⟨rfl, rfl, rfl, -⟩ | ⟨-, rfl, _, rfl, hfound, -⟩)
        · exact ⟨rfl, rfl, rfl⟩
        · exact absurd ⟨rfl, hfound⟩ hrest

theorem state?_eq_some {n : NamedState} {s : InteractionState} : n.state? = some s
    ↔ n.name = .text s.name ∧ (n.below = true → s ∈ InteractionState.control) := by
  have hofName : ∀ name, InteractionState.ofName? name = some s ↔ name = s.name := by
    intro name
    constructor
    · intro h
      have hname := List.find?_some h
      exact (beq_iff_eq.1 hname).symm
    · rintro rfl
      cases s <;> rfl
  obtain ⟨below, name, value⟩ := n
  cases name with
  | text name =>
    simp only [state?, Option.filter_eq_some_iff, hofName, Scalar.text.injEq]
    cases below <;> simp
  | _ => simp [state?]

theorem state?_ofColor {c : StateColor}
    (h : c.controlState = true → c.state ∈ InteractionState.control) :
    (ofColor c).state? = some c.state :=
  state?_eq_some.2 ⟨rfl, h⟩

/-- The colors that are walked are those named for states that can be written. -/
theorem mem_written_iff (hstates : DistinctNames states) {n : NamedState} :
    n ∈ (ofStates states).filter isWritten
      ↔ n ∈ (InteractionState.inPalette.flatMap (colorsIn states)).map ofColor := by
  simp only [List.mem_filter, mem_ofStates, List.mem_map, List.mem_flatMap, mem_colorsIn,
    isWritten, Bool.and_eq_true, Bool.not_eq_true', Option.isSome_iff_exists]
  constructor
  · rintro ⟨hn, hgiven, s, hs⟩
    obtain ⟨hname, hcontrol⟩ := state?_eq_some.1 hs
    refine ⟨⟨s, n.below, n.value⟩, ?_, ?_⟩
    · rcases hn with ⟨hbelow, hm, hrest⟩ | ⟨hbelow, scope, hm, hrest, hmem⟩
      · rw [hname] at hm hrest
        refine ⟨s, by cases s <;> decide, .inl ⟨hbelow, rfl, ?_, ?_⟩⟩
        · exact Document.member?_eq_some.2 ⟨Document.get?_of_mem hstates.nodup hm, hgiven⟩
        · rintro ⟨rfl, hvalue⟩
          exact hrest ⟨isSelected_eq.2 rfl, hvalue⟩
      · rw [hname] at hmem
        refine ⟨.selected, by decide,
          .inr ⟨hbelow, rfl, .map scope, ?_, hrest, hcontrol hbelow, ?_⟩⟩
        · exact Document.member?_eq_some.2 ⟨Document.get?_of_mem hstates.nodup hm, rfl⟩
        · have hscope := hstates.below scope hm
          exact Document.member?_eq_some.2 ⟨Document.get?_of_mem hscope hmem, hgiven⟩
    · obtain ⟨below, name, value⟩ := n
      cases hname
      rfl
  · rintro ⟨c, ⟨s, -, hc⟩, rfl⟩
    rcases hc with ⟨hbelow, rfl, hvalue, hrest⟩ | ⟨hbelow, rfl, value, hvalue, hrest, hs, hcolor⟩
    · obtain ⟨hget, hgiven⟩ := Document.member?_eq_some.1 hvalue
      refine ⟨.inl ⟨hbelow, Document.mem_of_get? hget, ?_⟩, hgiven, c.state, state?_ofColor ?_⟩
      · rintro ⟨hselected, hvalue⟩
        exact hrest ⟨InteractionState.name_injective (Scalar.text.inj (isSelected_eq.1 hselected)),
          hvalue⟩
      · simp [hbelow]
    · obtain ⟨hget, -⟩ := Document.member?_eq_some.1 hvalue
      obtain ⟨hcolor, hgiven⟩ := Document.member?_eq_some.1 hcolor
      cases value with
      | map scope =>
        refine ⟨.inr ⟨hbelow, scope, Document.mem_of_get? hget, hrest, ?_⟩, hgiven, c.state,
          state?_ofColor fun _ => hs⟩
        exact Document.mem_of_get? hcolor
      | scalar _ | list _ | set _ | circle => cases hcolor

theorem nodup_ofStates (hstates : DistinctNames states) : (ofStates states).Nodup := by
  rw [ofStates, List.nodup_flatMap]
  refine ⟨fun m hm => ?_, (List.pairwise_map.1 hstates.nodup).imp ?_⟩
  · rw [ofMember]
    split
    · next hrest =>
      obtain ⟨name, value⟩ := m
      rw [Bool.and_eq_true, isSelected_eq] at hrest
      obtain ⟨rfl, -⟩ := hrest
      cases value with
      | map scope =>
        refine List.Nodup.map ?_ (List.Nodup.of_map _ (hstates.below scope hm))
        rintro ⟨k, v⟩ ⟨k', v'⟩ h
        cases h
        rfl
      | scalar _ | list _ | set _ | circle => exact List.nodup_nil
    · exact List.nodup_singleton _
  · intro m m' hne n hn hn'
    rcases mem_ofMember.1 hn with ⟨hbelow, rfl, -⟩ | ⟨hbelow, _, rfl, -⟩
    · rcases mem_ofMember.1 hn' with ⟨-, rfl, -⟩ | ⟨hbelow', -⟩
      · exact hne rfl
      · rw [hbelow] at hbelow'
        cases hbelow'
    · rcases mem_ofMember.1 hn' with ⟨hbelow', -⟩ | ⟨-, _, rfl, -⟩
      · rw [hbelow] at hbelow'
        cases hbelow'
      · exact hne rfl

/-- No color is walked twice. -/
theorem nodup_colors (states : List (Scalar × Document)) :
    (InteractionState.inPalette.flatMap (colorsIn states)).Nodup := by
  rw [List.nodup_flatMap]
  refine ⟨fun s _ => ?_, (by decide : InteractionState.inPalette.Nodup).imp ?_⟩
  · rw [colorsIn]
    split
    · exact List.nodup_nil
    split
    · refine List.Nodup.filterMap (fun a b c ha hb => ?_) (by decide)
      obtain ⟨_, -, rfl⟩ := Option.map_eq_some_iff.1 ha
      obtain ⟨_, -, heq⟩ := Option.map_eq_some_iff.1 hb
      cases heq
      rfl
    · exact List.nodup_singleton _
  · intro s s' hne c hc hc'
    rcases mem_colorsIn.1 hc with ⟨hbelow, rfl, -⟩ | ⟨hbelow, rfl, -⟩
    · rcases mem_colorsIn.1 hc' with ⟨-, rfl, -⟩ | ⟨hbelow', -⟩
      · exact hne rfl
      · rw [hbelow] at hbelow'
        cases hbelow'
    · rcases mem_colorsIn.1 hc' with ⟨hbelow', -⟩ | ⟨-, rfl, -⟩
      · rw [hbelow] at hbelow'
        cases hbelow'
      · exact hne rfl

theorem ofColor_injective : Function.Injective ofColor := by
  rintro ⟨state, controlState, value⟩ ⟨state', controlState', value'⟩ h
  simp only [ofColor, NamedState.mk.injEq, Scalar.text.injEq] at h
  obtain ⟨rfl, hname, rfl⟩ := h
  rw [InteractionState.name_injective hname]

/-- Each color is walked once that is named for a state that can be written. -/
theorem written_perm (hstates : DistinctNames states) :
    ((ofStates states).filter isWritten).Perm
      ((InteractionState.inPalette.flatMap (colorsIn states)).map ofColor) :=
  (List.perm_ext_iff_of_nodup ((nodup_ofStates hstates).filter _)
    ((nodup_colors states).map ofColor_injective)).2 fun _ => mem_written_iff hstates

end NamedState

namespace PlacedState

open Keys

/-- The named states of a part of a section, and the keys that the part has. Each color that is
named for a state that can be written has one key, and what is named in a state map is a state. -/
structure Gives (named : List PlacedState) (es : List Emission) : Prop where
  keys : Matched HasKey (named.filter (·.isWritten)) es
  known : ∀ n ∈ named, n.below = false → n.state?.isSome = true

theorem Gives.of_mapM {α : Type} {l : List α} (named : α → List PlacedState)
    {walk : α → Except CompileError (List Emission)} {parts : List (List Emission)}
    (hstep : ∀ a ∈ l, ∀ es, walk a = .ok es → Gives (named a) es)
    (h : l.mapM walk = .ok parts) : Gives (l.flatMap named) parts.flatten := by
  replace h := mapM_eq_ok.1 h
  induction h with
  | nil => exact ⟨.of_forall₂ .nil, by simp⟩
  | cons ha _ ih =>
    obtain ⟨hkeys, hknown⟩ := hstep _ List.mem_cons_self _ ha
    obtain ⟨hkeys', hknown'⟩ := ih fun a ha => hstep a (List.mem_cons_of_mem _ ha)
    rw [List.flatMap_cons, List.flatten_cons]
    refine ⟨?_, fun n hn => ?_⟩
    · rw [List.filter_append]
      exact hkeys.append hkeys'
    · exact (List.mem_append.1 hn).elim (hknown n) (hknown' n)

theorem gives_track {spot : PaletteSpot} {states : List (Scalar × Document)}
    (hstates : NamedState.DistinctNames states) {es : List Emission}
    (h : emitTrack spot states = .ok es) :
    Gives ((NamedState.ofStates states).map fun n => { n with spot }) es where
  keys := by
    have hcontrol : ∀ c ∈ InteractionState.inPalette.flatMap (colorsIn states),
        c.controlState = true → c.state ∈ InteractionState.control := by
      intro c hc hbelow
      obtain ⟨s, -, hc⟩ := List.mem_flatMap.1 hc
      rcases NamedState.mem_colorsIn.1 hc with ⟨hplain, -⟩ | ⟨-, -, _, -, -, hs, -⟩
      · rw [hbelow] at hplain
        cases hplain
      · exact hs
    have hwalked := (Matched.of_forall₂ (mapM_eq_ok.1 (mapM_of_emitTrack h))).mem
    rw [List.filter_map]
    refine Matched.perm_left ?_ ((NamedState.written_perm hstates).map _)
    rw [List.map_map, ← List.map_id es]
    exact hwalked.map fun c e hc =>
      ⟨c.state, NamedState.state?_ofColor (hcontrol c hc.1.1), hc.2⟩
  known := by
    intro placed hplaced hbelow
    obtain ⟨n, hn, rfl⟩ := List.mem_map.1 hplaced
    rcases NamedState.mem_ofStates.1 hn with ⟨-, hm, -⟩ | ⟨hbelow', -⟩
    · rw [emitTrack] at h
      split at h
      · cases h
      · next hknown =>
        have hname := List.find?_eq_none.1 hknown _ hm
        obtain ⟨below, name, value⟩ := n
        cases hbelow
        cases name with
        | text name => simpa [isState, NamedState.state?, Option.isSome_iff_ne_none] using hname
        | _ => exact absurd rfl hname
    · rw [hbelow] at hbelow'
      cases hbelow'

variable {palette property role : String} {d : Document} {es : List Emission}

theorem gives_role (hd : ∀ track, NamedState.DistinctNames (trackStates d track))
    (h : emitRole palette property role d = .ok es) :
    Gives (ofRole palette property role d) es := by
  simp only [emitRole] at h
  split at h
  · cases h
  · simp only [bind_eq_ok, pure_eq_ok] at h
    obtain ⟨parts, hparts, rfl⟩ := h
    refine Gives.of_mapM _ (fun track _ es hes => ?_) hparts
    have hstates := hd track
    rw [trackStates] at hstates ⊢
    split at hes
    · next states hget =>
      rw [hget, Option.getD_some] at hstates ⊢
      exact gives_track hstates hes
    · next hget =>
      -- A role without the track names nothing.
      rw [hget]
      cases hes
      exact ⟨.of_forall₂ .nil, by simp [NamedState.ofStates]⟩

/-- The maps that name the states of a color property have no name twice. -/
def DistinctNames (entry : Document) : Prop :=
  ∀ m ∈ entry.map?.getD [], ∀ track, NamedState.DistinctNames (trackStates m.2 track)

theorem membersOf_eq_ok {members : List (Scalar × Document)} :
    membersOf d = .ok members ↔ d.map? = some members := by
  rw [membersOf]
  cases d.map? <;> simp

theorem gives_property (hd : DistinctNames d) (h : emitProperty palette property d = .ok es) :
    Gives (ofProperty palette property d) es := by
  cases hnull : d.isNull with
  | true =>
    cases d with
    | scalar s =>
      simp only [emitProperty, hnull, if_true] at h
      cases h
      exact ⟨.of_forall₂ .nil, by simp [ofProperty, Document.map?]⟩
    | _ => cases hnull
  | false =>
    cases hrest : hasRest d with
    | true =>
      simp only [emitProperty, hnull, hrest, Bool.false_eq_true, if_false, if_true] at h
      cases h
    | false =>
      simp only [emitProperty, hnull, hrest, Bool.false_eq_true, if_false, bind_eq_ok, pure_eq_ok,
        membersOf_eq_ok] at h
      obtain ⟨members, hmembers, parts, hparts, rfl⟩ := h
      rw [DistinctNames, hmembers] at hd
      rw [ofProperty, hmembers]
      exact Gives.of_mapM _ (fun m hm _ => gives_role (hd m hm)) hparts

end PlacedState

namespace Keys

open PlacedState

variable {palettes : Dict Document}

/-- The maps that name the states of a section have no name twice. -/
def DistinctNames (palettes : Dict Document) : Prop :=
  ∀ m ∈ palettes, ∀ q ∈ m.2.map?.getD [], PlacedState.DistinctNames q.2

theorem gives_emissions (hd : DistinctNames palettes) {es : List Emission}
    (h : emissions palettes = .ok es) : Gives (PlacedState.ofPalettes palettes) es := by
  simp only [emissions, bind_eq_ok, pure_eq_ok] at h
  obtain ⟨parts, hparts, rfl⟩ := h
  have hproperties : (palettes.flatMap fun m => (m.2.map?.getD []).map (m.1, ·)).mapM
      (fun q => emitProperty q.1 q.2.1.spoken q.2.2) = .ok parts.flatten := by
    refine mapM_flatMap_ok (fun m r hm => mapM_map_ok.2 ?_) hparts
    obtain ⟨members, hmembers, hm⟩ := bind_eq_ok.1 hm
    rw [membersOf_eq_ok.1 hmembers]
    exact hm
  have hgives := Gives.of_mapM (fun q => ofProperty q.1 q.2.1.spoken q.2.2)
    (fun q hq es hes => ?_) hproperties
  · rw [List.flatMap_assoc] at hgives
    simp only [List.flatMap_map] at hgives
    exact hgives
  · obtain ⟨m, hm, hq⟩ := List.mem_flatMap.1 hq
    obtain ⟨property, hproperty, rfl⟩ := List.mem_map.1 hq
    exact gives_property (hd m hm property hproperty) hes

end Keys

namespace PlacedState

def IsAt (n : PlacedState) (palette role label : String) : Prop :=
  n.spot.palette = palette ∧ n.spot.role = role ∧ n.label = label

instance (n : PlacedState) (palette role label : String) : Decidable (n.IsAt palette role label) :=
  inferInstanceAs (Decidable (_ ∧ _ ∧ _))

def IsKey (n : PlacedState) (key : String) : Prop := ∃ e, n.HasKey e ∧ e.key = key

theorem isAt_iff_of_hasKey {n : PlacedState} {e : Keys.Emission} (h : n.HasKey e)
    (palette role label : String) : n.IsAt palette role label
      ↔ e.palette = palette ∧ e.role = role ∧ e.label = label := by
  obtain ⟨s, hs, hemit⟩ := h
  obtain ⟨hname, -⟩ := NamedState.state?_eq_some.1 hs
  simp only [Keys.emit, bind_eq_ok, pure_eq_ok] at hemit
  obtain ⟨_, -, _, -, rfl⟩ := hemit
  have hlabel : n.label = if n.below then selectedLabel s else s.name := by
    rw [NamedState.label, hname]
    cases n.below with
    | true => rfl
    | false => exact String.empty_append
  rw [IsAt, hlabel]

end PlacedState

namespace Keys

open PlacedState

variable {palettes : Dict Document}

/-- The keys of a section are those of some states that it names. Each state has one key, which
stands under the label of the state. -/
structure Files (named : List PlacedState) (s : PaletteSection) : Prop where
  keys : ∀ palette role label, Matched IsKey (named.filter (·.IsAt palette role label))
    (labelled s.keys palette role label)
  count : s.count = named.length

/-- An accepted section has the keys of the colors that are named for states that can be written,
and a name in a state map is always that of a state. -/
theorem files_written (hd : DistinctNames palettes) {s : PaletteSection}
    (h : ofPalettes palettes = .ok s) :
    Files ((PlacedState.ofPalettes palettes).filter (·.isWritten)) s
      ∧ ∀ n ∈ PlacedState.ofPalettes palettes, n.below = false → n.state?.isSome = true := by
  simp only [ofPalettes, bind_eq_ok, pure_eq_ok] at h
  obtain ⟨es, hes, rfl⟩ := h
  obtain ⟨hkeys, hknown⟩ := gives_emissions hd hes
  refine ⟨⟨fun palette role label => ?_, hkeys.length_eq.symm⟩, hknown⟩
  rw [labelled_foldl, ← List.map_id (List.filter _ _)]
  refine (hkeys.filter fun n e hn => ?_).map fun n e hn => ⟨e, hn, rfl⟩
  simpa using isAt_iff_of_hasKey hn palette role label

def coloredStates (palettes : Dict Document) : List PlacedState :=
  (PlacedState.ofPalettes palettes).filter fun n => !n.value.isNull

/-- No named state is dropped. An accepted section has one key for each state that it names with a
color, and a section with a name that cannot be written into a key is refused. -/
structure KeepsStates (palettes : Dict Document) : Prop where
  files : ∀ s, ofPalettes palettes = .ok s → Files (coloredStates palettes) s
  refusal : (∃ n ∈ PlacedState.ofPalettes palettes, n.state? = none) →
    ∃ e, ofPalettes palettes = .error e

/-- No named state is dropped exactly if the section is refused or the names below `selected` are
those of control states. -/
theorem keepsStates_iff (hd : DistinctNames palettes) : KeepsStates palettes
    ↔ ∀ s, ofPalettes palettes = .ok s →
      ∀ n ∈ PlacedState.ofPalettes palettes, n.below = true → n.state?.isSome = true := by
  constructor
  · intro h s hs n hn _
    rw [Option.isSome_iff_ne_none]
    intro hnone
    obtain ⟨e, he⟩ := h.refusal ⟨n, hn, hnone⟩
    rw [hs] at he
    cases he
  · intro h
    have hknown : ∀ s, ofPalettes palettes = .ok s →
        ∀ n ∈ PlacedState.ofPalettes palettes, n.state?.isSome = true := by
      intro s hs n hn
      cases hbelow : n.below with
      | true => exact h s hs n hn hbelow
      | false => exact (files_written hd hs).2 n hn hbelow
    constructor
    case files =>
      intro s hs
      have hwritten : (PlacedState.ofPalettes palettes).filter (·.isWritten)
          = coloredStates palettes := by
        refine List.filter_congr fun n hn => ?_
        rw [NamedState.isWritten, hknown s hs n hn, Bool.and_true]
      exact hwritten ▸ (files_written hd hs).1
    case refusal =>
      rintro ⟨n, hn, hnone⟩
      rw [exists_error_iff]
      rintro ⟨s, hs⟩
      have hsome := hknown s hs n hn
      rw [hnone] at hsome
      cases hsome

def black : Document := .list ([0, 0, 0, 1].map fun n => .scalar (.number n))

def boxStates (scope : List (Scalar × Document)) : List (Scalar × Document) :=
  [(.text "rest", black), (.text "hover", .scalar .null), (.text "selected", .map scope)]

def selectedBox (scope : List (Scalar × Document)) : Dict Document :=
  [("brand", .map [(.text "boxColor", .map [(.text "primary",
    .map [(.text "soft", .map (boxStates scope))])])])]

def hoverScope : List (Scalar × Document) :=
  [(.text "rest", black), (.text "hover", .map [(.text "ref", black)])]

/-- With a color for the disabled state below `selected`. -/
def disabledScope : List (Scalar × Document) := [(.text "rest", black), (.text "disabled", black)]

theorem distinctNames_selectedBox {scope : List (Scalar × Document)}
    (h : (scope.map Prod.fst).Nodup) : DistinctNames (selectedBox scope) := by
  have hstates : NamedState.DistinctNames (boxStates scope) := by
    refine ⟨by simp [boxStates], fun scope' hscope => ?_⟩
    simp only [boxStates, InteractionState.name, List.mem_cons, Prod.mk.injEq, Scalar.text.injEq,
      List.not_mem_nil, or_false] at hscope
    rcases hscope with ⟨hname, -⟩ | ⟨hname, -⟩ | ⟨-, hmap⟩
    · exact absurd hname (by decide)
    · exact absurd hname (by decide)
    · cases hmap
      exact h
  have hnone : NamedState.DistinctNames [] := ⟨List.nodup_nil, by simp⟩
  intro m hm q hq r hr track
  obtain rfl := List.mem_singleton.1 hm
  obtain rfl := List.mem_singleton.1 hq
  obtain rfl := List.mem_singleton.1 hr
  cases track with
  | soft => exact hstates
  | solid => exact hnone

theorem keepsStates_hoverScope : DistinctNames (selectedBox hoverScope)
    ∧ ((ofPalettes (selectedBox hoverScope)).toOption.map (·.count)) = some 3
    ∧ KeepsStates (selectedBox hoverScope) := by
  have hdistinct : DistinctNames (selectedBox hoverScope) :=
    distinctNames_selectedBox (by simp [hoverScope])
  have hcontrol : ∀ n ∈ PlacedState.ofPalettes (selectedBox hoverScope), n.below = true →
      n.state?.isSome = true := by decide +kernel
  exact ⟨hdistinct, by decide +kernel, (keepsStates_iff hdistinct).2 fun _ _ => hcontrol⟩

/-- A color for the disabled state below `selected` is dropped. -/
theorem not_keepsStates_disabledScope : ¬KeepsStates (selectedBox disabledScope) := by
  have hcount : ((ofPalettes (selectedBox disabledScope)).toOption.map (·.count)) = some 2 := by
    decide +kernel
  have hnamed : (coloredStates (selectedBox disabledScope)).length = 3 := by decide +kernel
  obtain ⟨s, hs, hcount⟩ := exists_of_toOption_map hcount
  intro h
  have hfiles := (h.files s hs).count
  omega

end Keys
end AtomicCss

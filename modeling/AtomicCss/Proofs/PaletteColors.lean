import AtomicCss.Proofs.Palettes
import AtomicCss.Proofs.RoundTrip
import AtomicCss.Proofs.Text

/-!
# The colors of palettes

A section of palettes that compiles is a list of colors, each with its palette, property, role,
track and state, and its keys are the keys of these colors in their order. The states of a track are
walked in one fixed order, and those below `selected` where `selected` comes.
-/
namespace AtomicCss

structure StateColor where
  state : InteractionState
  /-- The state stands below `selected`. -/
  controlState : Bool
  value : Document

/-- A color with the place where a palette has it. -/
structure AuthoredColor extends StateColor where
  palette : String
  property : ColorProperty
  role : String
  track : Track

namespace Keys

/-- The colors that a track's state map has for a state. -/
def colorsIn (states : List (Scalar × Document)) (s : InteractionState) : List StateColor :=
  match Document.member? states s.name with
  | none => []
  | some value =>
    if s = .selected && hasRest value then
      InteractionState.control.filterMap fun sub =>
        (Document.member? (value.map?.getD []) sub.name).map fun color => ⟨sub, true, color⟩
    else [⟨s, false, value⟩]

/-- The state map of a track of a role, empty if there is none. -/
def trackStates (role : Document) (t : Track) : List (Scalar × Document) :=
  ((Document.get? (role.map?.getD []) t.name).bind Document.map?).getD []

def colorsOnTrack (role : Document) (t : Track) : List StateColor :=
  InteractionState.inPalette.flatMap (colorsIn (trackStates role t))

end Keys

namespace AuthoredColor

def label (c : AuthoredColor) : String :=
  if c.controlState then selectedLabel c.state else c.state.name

/-- The key of a color with all it is filed under. -/
def emit (c : AuthoredColor) : Except CompileError Keys.Emission :=
  Keys.emit
    { palette := c.palette, property := c.property.name, role := c.role, track := c.track }
    c.state c.controlState c.value

def ofRole (palette : String) (property : ColorProperty) (m : String × Document) :
    List AuthoredColor :=
  Track.all.flatMap fun track => (Keys.colorsOnTrack m.2 track).map fun c =>
    { c with palette, property, role := m.1, track }

end AuthoredColor

def Palettes.colors (p : Palettes) : List AuthoredColor :=
  p.flatMap fun (palette, properties) => properties.flatMap fun (property, roles) =>
    roles.flatMap (AuthoredColor.ofRole palette property)

namespace Keys

/-- The colors below `selected` are those that are there. -/
theorem filterMapM_emit (spot : PaletteSpot) (scope : List (Scalar × Document))
    (l : List InteractionState) :
    (l.filterMapM fun sub => do
      match Document.member? scope sub.name with
      | some color => pure (some (← emit spot sub true color))
      | none => pure none)
      = (l.filterMap fun sub => (Document.member? scope sub.name).map fun color =>
          StateColor.mk sub true color).mapM fun c => emit spot c.state c.controlState c.value := by
  induction l with
  | nil => rfl
  | cons sub l ih =>
    rw [List.filterMapM_cons, ih]
    cases h : Document.member? scope sub.name <;> simp [h]

theorem emitState_eq (spot : PaletteSpot) (states : List (Scalar × Document))
    (s : InteractionState) : emitState spot states s
      = (colorsIn states s).mapM fun c => emit spot c.state c.controlState c.value := by
  rw [emitState, colorsIn]
  cases Document.member? states s.name with
  | none => rfl
  | some value =>
    dsimp only
    split
    · exact filterMapM_emit spot _ _
    · simp

theorem mapM_of_emitTrack {spot : PaletteSpot} {states : List (Scalar × Document)}
    {es : List Emission} (h : emitTrack spot states = .ok es) :
    (InteractionState.inPalette.flatMap (colorsIn states)).mapM
      (fun c => emit spot c.state c.controlState c.value) = .ok es := by
  rw [emitTrack] at h
  split at h
  · cases h
  · simp only [bind_eq_ok, pure_eq_ok] at h
    obtain ⟨parts, hparts, rfl⟩ := h
    exact mapM_flatMap_ok (fun s r hs => emitState_eq spot states s ▸ hs) hparts

theorem mapM_of_emitRole {palette : String} {property : ColorProperty} {m : String × Document}
    {es : List Emission} (h : emitRole palette property.name m.1 m.2 = .ok es) :
    (AuthoredColor.ofRole palette property m).mapM AuthoredColor.emit = .ok es := by
  simp only [emitRole] at h
  split at h
  · cases h
  · simp only [bind_eq_ok, pure_eq_ok] at h
    obtain ⟨parts, hparts, rfl⟩ := h
    rw [AuthoredColor.ofRole]
    refine mapM_flatMap_ok (fun t r ht => ?_) hparts
    rw [mapM_map_ok, colorsOnTrack, trackStates]
    split at ht
    · next states hstates =>
      have htrack := mapM_of_emitTrack ht
      rw [hstates, Option.getD_some]
      simp only [AuthoredColor.emit]
      exact htrack
    · next hnone =>
      rw [hnone]
      cases ht
      rfl

theorem mapM_of_emitProperty {palette : String} {property : ColorProperty}
    {roles : Dict Document} {es : List Emission}
    (h : emitProperty palette property.name (freeMap roles) = .ok es) :
    (roles.flatMap (AuthoredColor.ofRole palette property)).mapM AuthoredColor.emit
      = .ok es := by
  have hmembers : membersOf (freeMap roles) = .ok (roles.map fun m => (.text m.1, m.2)) := rfl
  have hnull : (freeMap roles).isNull = false := rfl
  cases hrest : hasRest (freeMap roles) with
  | true =>
    simp [emitProperty, hnull, hrest] at h
    cases h
  | false =>
    simp only [emitProperty, hnull, hrest, hmembers, Bool.false_eq_true, if_false, bind_eq_ok,
      pure_eq_ok, Except.ok.injEq, exists_eq_left', mapM_map_ok] at h
    obtain ⟨parts, hparts, rfl⟩ := h
    exact mapM_flatMap_ok (fun _ _ hm => mapM_of_emitRole hm) hparts

/-- A section of palettes that compiles has the keys of its colors, in their order. -/
theorem mapM_colors_of_emissions {p : Palettes} {es : List Emission}
    (h : emissions p.members = .ok es) : p.colors.mapM AuthoredColor.emit = .ok es := by
  simp only [emissions, Palettes.members, bind_eq_ok, pure_eq_ok, mapM_map_ok] at h
  obtain ⟨parts, hparts, rfl⟩ := h
  -- The palettes are walked property by property, and the properties color by color.
  have hproperties : (p.flatMap fun m => m.2.map fun q => (m.1, q)).mapM
      (fun m => emitProperty m.1 m.2.1.name (freeMap m.2.2)) = .ok parts.flatten := by
    refine mapM_flatMap_ok (fun m r hm => mapM_map_ok.2 ?_) hparts
    simpa only [membersOf, Document.map?, bind_eq_ok, Except.ok.injEq, exists_eq_left',
      mapM_map_ok, Scalar.spoken] using hm
  have hcolors := mapM_flatMap_ok (fun _ _ hm => mapM_of_emitProperty hm) hproperties
  rw [List.flatMap_assoc] at hcolors
  simp only [List.flatMap_map] at hcolors
  exact hcolors

end Keys

namespace Rule

theorem dropFinalBreak_concat {front : List Char} {c : Char} (hbreak : c ≠ '\n') :
    dropFinalBreak (front ++ [c]) = front ++ [c] := by
  rw [dropFinalBreak, List.reverse_append]
  split
  · next heq => exact absurd (List.cons.inj heq).1 hbreak
  · rfl

theorem bracketed?_eq_none {front : List Char} {c : Char} (hbreak : c ≠ '\n') (h : c ≠ ']') :
    bracketed? (front ++ [c]) = none := by
  rw [bracketed?, dropFinalBreak_concat hbreak, dropLast?, List.reverse_append]
  simp [h]

theorem exists_append_afterLast (sep : Char) (cs : List Char) :
    sep ∉ afterLast sep cs ∧ ∃ front, cs = front ++ afterLast sep cs := by
  refine ⟨fun hsep => ?_, (cs.reverse.dropWhile (· ≠ sep)).reverse, ?_⟩
  · have hne := List.all_eq_true.1 List.all_takeWhile sep (List.mem_reverse.1 hsep)
    simp at hne
  · rw [afterLast, ← List.reverse_append, List.takeWhile_append_dropWhile, List.reverse_reverse]

/-- What is read between the brackets at the end of a key holds no closing bracket and follows an
opening one. -/
theorem exists_of_bracketed? {key inside : List Char}
    (h : bracketed? (key ++ [']']) = some inside) :
    ']' ∉ inside ∧ ∃ front, key = front ++ '[' :: inside := by
  have hlast : dropLast? ']' (key ++ [']']) = some key := by simp [dropLast?]
  simp only [bracketed?, dropFinalBreak_concat (by decide : ']' ≠ '\n'), hlast,
    Option.bind_eq_bind, Option.bind_some, Option.bind_eq_some_iff, Text.after?_eq_some] at h
  obtain ⟨cs, hcs, h⟩ := h
  obtain ⟨-, hcs'⟩ := Option.ite_none_left_eq_some.1 h
  cases hcs'
  obtain ⟨hsep, front, hfront⟩ := exists_append_afterLast ']' key
  obtain ⟨before, hbefore⟩ : ∃ before, afterLast ']' key = before ++ '[' :: inside := by
    refine ⟨(afterLast ']' key).takeWhile (· ≠ '['), ?_⟩
    rw [← List.singleton_append, ← hcs, List.takeWhile_append_dropWhile]
  refine ⟨fun hmem => hsep (by simp [hbefore, hmem]), front ++ before, ?_⟩
  rw [List.append_assoc, ← hbefore]
  exact hfront

end Rule

theorem Document.json_eq_ok {d : Document} {v : Value} :
    d.json = .ok v ↔ d.isEndless = false ∧ d.jsonValue = .ok v := by
  rw [json]
  cases d.isEndless <;> simp

namespace AuthoredColor

def coordinates (c : AuthoredColor) (json : Value) : StyleKey.Coordinates where
  property := c.property.name
  value := .text (StyleKey.jsonText json)
  isRef := (Keys.unwrapRef c.value).2
  controlState := c.controlState
  state := some c.state.name

theorem inVocabulary_coordinates (c : AuthoredColor) (json : Value) :
    (c.coordinates json).InVocabulary where
  property := by
    change c.property.name ∈ StyleKey.propertyNames
    cases c.property <;> decide
  state := by
    rintro _ ⟨rfl⟩
    exact ⟨c.state, rfl⟩
  size := by simp [coordinates]
  breakpoint := by simp [coordinates]

theorem emit_eq_ok {c : AuthoredColor} {e : Keys.Emission} :
    c.emit = .ok e ↔ ∃ json, (Keys.unwrapRef c.value).1.json = .ok json
      ∧ StyleKey.encode (c.coordinates json) = .ok e.key
      ∧ e.palette = c.palette ∧ e.role = c.role ∧ e.label = c.label ∧ e.track = c.track := by
  obtain ⟨palette, role, label, track, key⟩ := e
  simp only [emit, Keys.emit, Keys.colorText, bind_eq_ok, mapError_eq_ok, pure_eq_ok,
    Keys.Emission.mk.injEq]
  constructor
  · rintro ⟨_, ⟨json, hjson, rfl⟩, _, hkey, rfl, rfl, rfl, rfl, rfl⟩
    exact ⟨json, hjson, hkey, rfl, rfl, rfl, rfl⟩
  · rintro ⟨json, hjson, hkey, rfl, rfl, rfl, rfl⟩
    exact ⟨_, ⟨json, hjson, rfl⟩, key, hkey, rfl, rfl, rfl, rfl, rfl⟩

end AuthoredColor

/-- The keys that a palette of an entry has are those filed for the palette. -/
theorem Entry.hasColor_iff {entry : Entry} {es : List Keys.Emission}
    (h : entry.palettes.getD [] = es.foldl Keys.fileByLabel []) {palette key : String} :
    entry.HasColor palette key ↔ ∃ e ∈ es, e.palette = palette ∧ e.key = key := by
  have hkeyed := Keys.keyed_byLabel es
  rw [HasColor, h]
  constructor
  · rintro ⟨roles, hp, hk⟩
    simp only [BundleRules.roleKeys, List.mem_flatMap, Entry.mem_bucketKeys, Option.getD_some,
      Prod.exists] at hk
    obtain ⟨role, labels, hr, label, keys, hl, hk⟩ := hk
    have hroles := hkeyed.all palette roles hp
    rw [← Dict.getD_of_mem (w := []) (hroles.all role labels hr) hl,
      ← Dict.getD_of_mem (w := []) hroles.nodup hr,
      ← Dict.getD_of_mem (w := []) hkeyed.nodup hp] at hk
    obtain ⟨e, he, hplace, rfl⟩ := Keys.mem_labelled.1 hk
    exact ⟨e, he, hplace.1, rfl⟩
  · rintro ⟨e, he, rfl, rfl⟩
    have hk := Keys.mem_labelled.2 ⟨e, he, ⟨rfl, rfl, rfl⟩, rfl⟩
    rw [Keys.labelled] at hk
    cases hroles : Dict.get? (es.foldl Keys.fileByLabel []) e.palette with
    | none =>
      have hpalette : Dict.getD (es.foldl Keys.fileByLabel []) e.palette [] = [] := by
        rw [Dict.getD, hroles, Option.getD_none]
      rw [hpalette] at hk
      cases hk
    | some roles =>
      have hpalette : Dict.getD (es.foldl Keys.fileByLabel []) e.palette [] = roles := by
        rw [Dict.getD, hroles, Option.getD_some]
      rw [hpalette, Dict.mem_getD_getD (hkeyed.get? hroles)] at hk
      obtain ⟨labels, keys, hr, hl, hk⟩ := hk
      refine ⟨roles, Dict.mem_of_get? hroles, List.mem_flatMap.2 ⟨_, hr, ?_⟩⟩
      exact Entry.mem_bucketKeys.2 ⟨e.label, keys, hl, hk⟩

namespace Compiled.SectionsOf

variable {e : Element} {entry : Entry} {section? : Option Keys.PaletteSection}

/-- The palettes of an entry and their metadata are filed from the keys of the colors of the
element. -/
theorem exists_colorKeys (h : SectionsOf e entry section?) : ∃ es,
    (e.palettes.getD []).colors.mapM AuthoredColor.emit = .ok es
      ∧ entry.palettes.getD [] = es.foldl Keys.fileByLabel []
      ∧ (section?.map (·.tones)).getD [] = es.foldl Keys.fileByTrack [] := by
  obtain ⟨hsection, hkeys⟩ := h.palettes
  obtain ⟨hfilled, rfl⟩ | ⟨members, s, hfilled, rfl, hof⟩ := mapM_option_eq_ok.1 hsection
  · have hempty : e.palettes.getD [] = [] := by
      cases hp : e.palettes with
      | none => rfl
      | some p => simpa [filled, hp, Palettes.members] using hfilled
    rw [hempty, hkeys]
    exact ⟨[], rfl, rfl, rfl⟩
  · obtain ⟨p, hp, rfl⟩ := Option.map_eq_some_iff.1 (filled_eq_some hfilled)
    simp only [Keys.ofPalettes, bind_eq_ok, pure_eq_ok] at hof
    obtain ⟨es, hes, rfl⟩ := hof
    rw [hp, hkeys]
    exact ⟨es, Keys.mapM_colors_of_emissions hes, rfl, rfl⟩

theorem exists_color (h : SectionsOf e entry section?) {palette key : String}
    (hk : entry.HasColor palette key) : ∃ c ∈ (e.palettes.getD []).colors,
      ∃ json, StyleKey.encode (c.coordinates json) = .ok key := by
  obtain ⟨es, hes, hentry, -⟩ := h.exists_colorKeys
  obtain ⟨em, hem, -, rfl⟩ := (Entry.hasColor_iff hentry).1 hk
  obtain ⟨c, hc, hemit⟩ := (mem_mapM_ok hes).1 hem
  obtain ⟨json, -, hkey, -⟩ := AuthoredColor.emit_eq_ok.1 hemit
  exact ⟨c, hc, json, hkey⟩

end Compiled.SectionsOf
end AtomicCss

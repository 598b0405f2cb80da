import AtomicCss.Proofs.SheetReading

/-!
# From authored colors to rules

A color stands in a file under its palette, property, role, track and state. A build lists a class
for it under the palette, the role and the label of the state, and gives this class one rule in the
palette's bundle, which sets the property to the color in the states of the label.
-/
namespace AtomicCss

namespace Document

/-- A color: a list, or a map that marks a list as a reference. -/
inductive IsColor : Document → List Document → Bool → Prop
  | plain (items : List Document) : IsColor (.list items) items false
  | ref (items : List Document) : IsColor (.map [(.text "ref", .list items)]) items true

/-- States below `selected`, among them the one at rest. -/
structure IsScope (members : List (Scalar × Document)) : Prop where
  rest : (get? members InteractionState.rest.name).isSome = true
  states : ∀ m ∈ members, ∃ s ∈ InteractionState.control, m.1 = .text s.name

theorem IsColor.unwrapRef {d : Document} {items : List Document} {isRef : Bool}
    (h : d.IsColor items isRef) : Keys.unwrapRef d = (.list items, isRef) := by
  cases h <;> rfl

theorem IsColor.hasRest {d : Document} {items : List Document} {isRef : Bool}
    (h : d.IsColor items isRef) : Keys.hasRest d = false := by
  cases h <;> rfl

theorem IsColor.isNull {d : Document} {items : List Document} {isRef : Bool}
    (h : d.IsColor items isRef) : d.isNull = false := by
  cases h <;> rfl

theorem exists_json_list {items : List Document} {json : Value}
    (h : (Document.list items).json = .ok json) : ∃ values, json = .list values := by
  obtain ⟨-, hjson⟩ := json_eq_ok.1 h
  rw [jsonValue] at hjson
  obtain ⟨values, -, rfl⟩ := map_eq_ok.1 hjson
  exact ⟨values, rfl⟩

end Document

namespace Element

/-- The state maps of an element's colors, each with its palette, property, role and track. -/
def HasStates (e : Element) (palette : String) (property : ColorProperty) (role : String)
    (track : Track) (states : List (Scalar × Document)) : Prop :=
  ∃ properties roles tracks, (palette, properties) ∈ e.palettes.getD []
    ∧ (property, roles) ∈ properties ∧ (role, .map tracks) ∈ roles
    ∧ Document.get? tracks track.name = some (.map states)

/-- A value for a state, or for a state below `selected`. -/
inductive Authors (e : Element) : AuthoredColor → Prop
  | state {palette property role track states} (s : InteractionState) (value : Document)
    (hstates : e.HasStates palette property role track states)
    (hvalue : Document.get? states s.name = some value) :
    Authors e ⟨⟨s, false, value⟩, palette, property, role, track⟩
  | below {palette property role track states scope} (s : InteractionState) (value : Document)
    (hstates : e.HasStates palette property role track states)
    (hscope : Document.get? states InteractionState.selected.name = some (.map scope))
    (hvalue : Document.get? scope s.name = some value) :
    Authors e ⟨⟨s, true, value⟩, palette, property, role, track⟩

/-- What stands for `selected` is a color or holds states below it. -/
def SelectedWell (e : Element) : Prop :=
  ∀ palette property role track states selected,
    e.HasStates palette property role track states →
    Document.get? states InteractionState.selected.name = some selected →
    (∃ items isRef, selected.IsColor items isRef)
      ∨ ∃ scope, selected = .map scope ∧ Document.IsScope scope

theorem HasStates.mem_colors {e : Element} {palette role : String} {property : ColorProperty}
    {track : Track} {states : List (Scalar × Document)}
    (h : e.HasStates palette property role track states) {c : StateColor} {s : InteractionState}
    (hc : c ∈ Keys.colorsIn states s) :
    (⟨c, palette, property, role, track⟩ : AuthoredColor) ∈ (e.palettes.getD []).colors := by
  obtain ⟨properties, roles, tracks, hp, hq, hr, ht⟩ := h
  have hwalked : s ∈ InteractionState.inPalette := by cases s <;> decide
  have htrack : track ∈ Track.all := by cases track <;> decide
  have hstates : Keys.trackStates (.map tracks) track = states := by
    simp [Keys.trackStates, Document.map?, ht]
  simp only [Palettes.colors, List.mem_flatMap, AuthoredColor.ofRole, List.mem_map]
  refine ⟨_, hp, _, hq, _, hr, track, htrack, c, ?_, rfl⟩
  rw [Keys.colorsOnTrack, hstates]
  exact List.mem_flatMap.2 ⟨s, hwalked, hc⟩

theorem Authors.mem_colors {e : Element} {c : AuthoredColor} (h : e.Authors c)
    (hselected : e.SelectedWell) {items : List Document} {isRef : Bool}
    (hcolor : c.value.IsColor items isRef) : c ∈ (e.palettes.getD []).colors := by
  cases h with
  | state s value hstates hvalue =>
    refine hstates.mem_colors (s := s) ?_
    simp [Keys.colorsIn, Document.member?_eq_some.2 ⟨hvalue, hcolor.isNull⟩, hcolor.hasRest]
  | @below _ _ _ _ _ scope s value hstates hscope hvalue =>
    refine hstates.mem_colors (s := .selected) ?_
    rcases hselected _ _ _ _ _ _ hstates hscope with ⟨_, _, h⟩ | ⟨members, heq, hmembers⟩
    · -- A reference is no state.
      cases h
      cases s <;> cases hvalue
    · cases heq
      obtain ⟨t, ht, hname⟩ := hmembers.states _ (Document.mem_of_get? hvalue)
      obtain rfl := InteractionState.name_injective (Scalar.text.inj hname)
      have hrest : Keys.hasRest (.map scope) = true := hmembers.rest
      have hscope' := Document.member?_eq_some.2 ⟨hscope, rfl⟩
      have hvalue' := Document.member?_eq_some.2 ⟨hvalue, hcolor.isNull⟩
      simp only [Keys.colorsIn, hscope', hrest, decide_true, Bool.true_and, if_true]
      refine List.mem_filterMap.2 ⟨s, ht, ?_⟩
      simp [Document.map?, hvalue']

end Element

namespace Value

def integers? : Value → Option (List Int)
  | .list items => items.mapM fun
    | .number (.int n) => some n
    | _ => none
  | _ => none

theorem eq_of_integers? {v : Value} {ns : List Int} (h : v.integers? = some ns) :
    v = .list (ns.map fun n => .number (.int n)) := by
  cases v with
  | list items =>
    rw [integers?] at h
    induction items generalizing ns with
    | nil => cases h; rfl
    | cons v items ih =>
      simp only [List.mapM_cons, Option.bind_eq_bind, Option.bind_eq_some_iff] at h
      obtain ⟨n, hn, ms, hms, h⟩ := h
      cases h
      split at hn
      · cases hn
        exact congrArg Value.list (congrArg (_ :: ·) (Value.list.inj (ih hms)))
      · cases hn
  | null | bool _ | number _ | text _ | map _ => cases h

end Value

namespace ClassMap

theorem projectMembers_eq (names : Dict String) (members : Dict Value) :
    projectMembers names members = members.map fun (k, v) => (k, project names v) := by
  induction members with
  | nil => rfl
  | cons m members ih => rw [projectMembers, ih, List.map_cons]

/-- The shape of a class map is that of the tree. -/
theorem at?_project (names : Dict String) (v : Value) (path : List String) :
    (project names v).at? path = (v.at? path).map (project names) := by
  induction path generalizing v with
  | nil => rfl
  | cons k path ih =>
    cases v with
    | map members =>
      have hget := Dict.get?_map (fun _ => project names) members k
      simp only [project, projectMembers_eq, Value.at?]
      rw [hget]
      cases Dict.get? members k with
      | none => rfl
      | some w => exact ih w
    | null | bool _ | number _ | text _ | list _ => rfl

end ClassMap

theorem Entry.at?_palettes {e : Entry} {palette role label key : String}
    (h : key ∈ Keys.labelled (e.palettes.getD []) palette role label) :
    ∃ keys, e.toValue.at? ["palettes", palette, role, label] = some (listValue keys)
      ∧ key ∈ keys := by
  have hpalettes : e.toValue.at? ["palettes"] = e.palettes.map palettesValue := by
    simp [toValue, Value.at?, Dict.get?_list_append, Keys.get?_optionalMember]
  have hpath := Value.at?_append e.toValue ["palettes"] [palette, role, label]
  rw [List.singleton_append, hpalettes] at hpath
  rw [hpath]
  cases hp : e.palettes with
  | none => simp [hp, Keys.labelled, Dict.getD] at h
  | some palettes =>
    simp only [hp, Option.getD_some, Keys.labelled, Dict.getD] at h
    cases hroles : Dict.get? palettes palette with
    | none => simp [hroles] at h
    | some roles =>
      cases hlabels : Dict.get? roles role with
      | none => simp [hroles, hlabels] at h
      | some labels =>
        cases hkeys : Dict.get? labels label with
        | none => simp [hroles, hlabels, hkeys] at h
        | some keys =>
          refine ⟨keys, ?_, by simpa [hroles, hlabels, hkeys] using h⟩
          have hpalette := Value.at?_members (fun roles : Dict Buckets =>
            Value.map (roles.map fun m => (m.1, bucketsValue m.2))) palettes palette [role, label]
          have hrole := Value.at?_members bucketsValue roles role [label]
          have hlabel := Value.at?_members listValue labels label []
          rw [hroles, Option.bind_some, hrole, hlabels, Option.bind_some] at hpalette
          exact hpalette.trans (hlabel.trans (by rw [hkeys]; rfl))

namespace Build

/-- A class that the class map lists for a color of an element, and that has one rule in the sheet
of the palette: the rule that sets the property to the color in the states of the label. -/
structure HasColorRule (b : Build) (o : BuildOptions) (component element : String)
    (c : AuthoredColor) (isRef : Bool) (hex className : String) : Prop where
  listed : ∃ classes, b.classMap.at? [component, element, "palettes", c.palette, c.role, c.label]
    = some (.list classes) ∧ .text className ∈ classes
  sheet : ∃ css, b.sheets.palettes.get? c.palette = some css
    ∧ Stylesheet.ruleCount (Rule.rulesIn css) className = 1
    ∧ ∃ selectors, Selector.ofStates className none isRef o.forceState c.activeStates
        = .ok selectors
      ∧ ∃ r ∈ Rule.rulesIn css, Rule.styledClass r.body = className
        ∧ r = ⟨Rule.bodyOf selectors c.property.css hex, none⟩

/-- The class of a key stands in the class map where the tree has the key. -/
theorem MadeFrom.exists_listed {s : Schema} {o : BuildOptions} {b : Build} (h : b.MadeFrom s o)
    {component element : String} {entry : Entry}
    (hentry : Dict.at? b.compiled.tree component element = some entry)
    {palette role label key : String}
    (hkey : key ∈ Keys.labelled (entry.palettes.getD []) palette role label) :
    ∃ classes, b.classMap.at? [component, element, "palettes", palette, role, label]
        = some (.list classes)
      ∧ .text (ClassName.of b.names key) ∈ classes := by
  obtain ⟨keys, hat, hmem⟩ := Entry.at?_palettes hkey
  have hplace : b.compiled.tree.toValue.at? [component, element] = some entry.toValue := by
    have hnested := ClassMap.at?_nested Entry.toValue b.compiled.tree component element
    rwa [hentry] at hnested
  have hpath := Value.at?_append b.compiled.tree.toValue [component, element]
    ["palettes", palette, role, label]
  rw [hplace, Option.bind_some, hat] at hpath
  refine ⟨_, (h.classMap ▸ ClassMap.at?_project _ _ _).trans (congrArg _ hpath), ?_⟩
  simpa [Entry.listValue] using ⟨key, hmem, rfl⟩

/-- A color that is a list or a reference to one, and that has a hexadecimal form,
has a class and a rule as the file has it, if its text is read back as it was written. -/
theorem exists_hasColorRule {s : Schema} {o : BuildOptions} {b : Build}
    (hb : ofSchema s o = .ok b) (hs : s.DistinctPlaces) {component element : String} {e : Element}
    (he : (component, element, e) ∈ s.places) (hselected : e.SelectedWell) {c : AuthoredColor}
    (hc : e.Authors c) {items : List Document} {isRef : Bool} (hcolor : c.value.IsColor items isRef)
    {json : Value} (hjson : (Document.list items).json = .ok json) {hex : String}
    (hhex : Color.hexOfHsla json = .ok hex)
    (hread : Json.read (StyleKey.jsonText json) = .ok json.normalize) :
    ∃ className, b.HasColorRule o component element c isRef hex className := by
  have hmade := madeFrom hb
  obtain ⟨entry, section?, hentry, hof⟩ := hmade.faithful.exists_entry hs he
  have hmem := (KeyTree.mem_entries_iff hmade.faithful.tree).2 hentry
  obtain ⟨es, hes, hkeys, -⟩ := (Compiled.sectionsOf hof).exists_colorKeys
  obtain ⟨em, hemes, hem⟩ := exists_of_mapM_ok hes (hc.mem_colors hselected hcolor)
  obtain ⟨_, -, -, hpalette, hrole, hlabel, -⟩ := AuthoredColor.emit_eq_ok.1 hem
  have hhas : entry.HasColor c.palette em.key :=
    (Entry.hasColor_iff hkeys).2 ⟨em, hemes, hpalette, rfl⟩
  refine ⟨ClassName.of b.names em.key, ?listed, ?sheet⟩
  case listed =>
    have hlabelled : em.key ∈ Keys.labelled (entry.palettes.getD []) c.palette c.role c.label := by
      rw [hkeys]
      exact Keys.mem_labelled.2 ⟨em, hemes, ⟨hpalette, hrole, hlabel⟩, rfl⟩
    exact hmade.exists_listed hentry hlabelled
  case sheet =>
    obtain ⟨css, r, hcss, hr, hmemr⟩ := hmade.exists_mem_rulesIn hmem hhas
    rw [(Compiled.sectionsOf hof).ruleOf_eq hhas] at hr
    have hclass := hmade.styledClass_colorRule (KeyTree.mem_keys_of_mem hmem hhas.mem_keys) hr
    have hcount := hmade.ruleCount_color hmem hhas o.combineMedia
    rw [← hmade.sheetsRead.palettes _ _ hcss] at hcount
    obtain ⟨values, rfl⟩ := Document.exists_json_list hjson
    have hunwrap := hcolor.unwrapRef
    obtain ⟨selectors, hselectors, hrule⟩ :=
      AuthoredColor.ofColor_emit hem (by rw [hunwrap]; exact hjson) hhex hread hr
    rw [hunwrap] at hselectors
    exact ⟨css, hcss, hcount, selectors, hselectors, r, hmemr, hclass, hrule⟩

def whiteComponents : List Number := [0, 0, 100, .float 1]

def whiteItems : List Document := whiteComponents.map fun n => .scalar (.number n)

def white : Value := .list (whiteComponents.map .number)

def whiteSelected : List (Scalar × Document) :=
  [(.text "rest", .list whiteItems), (.text "hover", .map [(.text "ref", .list whiteItems)])]

def whiteStates : List (Scalar × Document) :=
  [(.text "rest", .list whiteItems), (.text "selected", .map whiteSelected)]

/-- A white box, by reference on hover below `selected`. -/
def whiteBox : Element where
  decorations := none
  scales := none
  palettes := some
    [("brand", [(.boxColor, [("primary", .map [(.text "soft", .map whiteStates)])])])]
  effects := none

theorem eq_whiteStates {palette role : String} {property : ColorProperty} {track : Track}
    {states : List (Scalar × Document)}
    (h : whiteBox.HasStates palette property role track states) : states = whiteStates := by
  obtain ⟨properties, roles, tracks, hp, hq, hr, ht⟩ := h
  cases List.mem_singleton.1 hp
  cases List.mem_singleton.1 hq
  cases List.mem_singleton.1 hr
  cases track <;> cases ht
  rfl

theorem selectedWell_whiteBox : whiteBox.SelectedWell := by
  rintro palette property role track states selected hstates hselected
  cases eq_whiteStates hstates
  cases hselected
  refine .inr ⟨_, rfl, rfl, fun m hm => ?_⟩
  rcases List.mem_pair.1 hm with rfl | rfl
  · exact ⟨.rest, by decide, rfl⟩
  · exact ⟨.hover, by decide, rfl⟩

theorem read_white : Json.read (StyleKey.jsonText white) = .ok white.normalize := by
  have hread : (Json.read (StyleKey.jsonText white)).toOption.map Value.integers?
      = some (some [0, 0, 100, 1]) := by decide +kernel
  have hnormal : white.normalize.integers? = some [0, 0, 100, 1] := by decide +kernel
  obtain ⟨v, hv, hintegers⟩ := exists_of_toOption_map hread
  rw [hv, Value.eq_of_integers? hintegers, Value.eq_of_integers? hnormal]

theorem whiteBox_hasColorRule : ∃ b className,
    ofSchema (.ofElements [("box", whiteBox)]) {} = .ok b
      ∧ b.HasColorRule {} "card" "box" ⟨⟨.hover, true, .map [(.text "ref", .list whiteItems)]⟩,
          "brand", .boxColor, "primary", .soft⟩ true "#ffffff" className := by
  have hb : ((ofSchema (.ofElements [("box", whiteBox)]) {}).toOption.map fun b =>
      b.compiled.tree.keys.length) = some 3 := by decide +kernel
  have hhex : (Color.hexOfHsla white).toOption.map id = some "#ffffff" := by decide +kernel
  obtain ⟨b, hb, -⟩ := exists_of_toOption_map hb
  obtain ⟨_, hhex, rfl⟩ := exists_of_toOption_map hhex
  have hstates : whiteBox.HasStates "brand" .boxColor "primary" .soft whiteStates :=
    ⟨_, _, _, List.mem_singleton_self _, List.mem_singleton_self _, List.mem_singleton_self _, rfl⟩
  have hplace : ("card", "box", whiteBox) ∈ (Schema.ofElements [("box", whiteBox)]).places :=
    List.mem_singleton_self _
  obtain ⟨className, h⟩ := exists_hasColorRule hb (by decide) hplace selectedWell_whiteBox
    (.below .hover _ hstates rfl rfl) (.ref whiteItems) rfl hhex read_white
  exact ⟨b, className, hb, h⟩

end Build

end AtomicCss

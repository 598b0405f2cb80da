import AtomicCss.Proofs.Checked
import AtomicCss.Proofs.Sections

/-!
# Effects always have keys

An element fails to compile by its palettes, or by what cannot be written out. Its effects alone
never fail if none of their integers is too long to be written: a shadow is made of maps, and every
state of an effect can be written into a key. So an element whose free-form data can be written out
has keys for its effects.
-/
namespace AtomicCss

namespace Document

/-- Whether a document can be written out: it holds no bytes that spell no text, no integer too long
to be written as a key, and not itself. -/
def IsWritable (d : Document) : Prop := d.fault? = none

theorem itemsFault?_eq_none {items : List Document} :
    itemsFault? items = none ↔ ∀ d ∈ items, d.IsWritable := by
  induction items with
  | nil => simp [itemsFault?]
  | cons d items ih => simp [itemsFault?, ih, IsWritable]

theorem membersFault?_eq_none {members : List (Scalar × Document)} :
    membersFault? members = none
      ↔ ∀ k d, (k, d) ∈ members → keyFault? k = none ∧ d.IsWritable := by
  induction members with
  | nil => simp [membersFault?]
  | cons m members ih =>
    obtain ⟨j, e⟩ := m
    rw [membersFault?, Option.or_eq_none_iff, Option.or_eq_none_iff, ih]
    constructor
    · rintro ⟨hj, he, hmembers⟩ k d hm
      rcases List.mem_cons.1 hm with heq | hm
      · obtain ⟨rfl, rfl⟩ := Prod.mk.inj heq
        exact ⟨hj, he⟩
      · exact hmembers k d hm
    · intro h
      obtain ⟨hj, he⟩ := h j e List.mem_cons_self
      exact ⟨hj, he, fun k d hm => h k d (List.mem_cons_of_mem _ hm)⟩

theorem isWritable_list {items : List Document} :
    (Document.list items).IsWritable ↔ ∀ d ∈ items, d.IsWritable := by
  rw [IsWritable, fault?, itemsFault?_eq_none]

theorem isWritable_map {members : List (Scalar × Document)} : (Document.map members).IsWritable
    ↔ ∀ k d, (k, d) ∈ members → keyFault? k = none ∧ d.IsWritable := by
  rw [IsWritable, fault?, membersFault?_eq_none]

theorem isWritable_freeMap {members : Dict Document} :
    (freeMap members).IsWritable ↔ ∀ k d, (k, d) ∈ members → d.IsWritable := by
  rw [freeMap, isWritable_map]
  simp only [List.mem_map, Prod.mk.injEq, Prod.exists]
  constructor
  · exact fun h k d hm => (h (.text k) d ⟨k, d, hm, rfl, rfl⟩).2
  · rintro h _ _ ⟨k, d, hm, rfl, rfl⟩
    exact ⟨rfl, h k d hm⟩

mutual

/-- Whatever its integers, a value can be written out. -/
theorem isWritable_ofValue : ∀ v : Value, (ofValue v).IsWritable
  | .null | .bool _ | .number _ | .text _ => rfl
  | .list items => isWritable_list.2 (isWritable_of_mem_ofItems items)
  | .map members => isWritable_map.2 (isWritable_of_mem_ofMembers members)

theorem isWritable_of_mem_ofItems : ∀ (items : List Value), ∀ d ∈ ofItems items, d.IsWritable
  | [] => by simp [ofItems]
  | v :: items => by
    simp only [ofItems, List.mem_cons, forall_eq_or_imp]
    exact ⟨isWritable_ofValue v, isWritable_of_mem_ofItems items⟩

theorem isWritable_of_mem_ofMembers : ∀ (members : List (String × Value)) (k : Scalar)
    (d : Document), (k, d) ∈ ofMembers members → keyFault? k = none ∧ d.IsWritable
  | [] => by simp [ofMembers]
  | (_, v) :: members => by
    simp only [ofMembers, List.mem_cons]
    rintro k d (h | h)
    · obtain ⟨rfl, rfl⟩ := Prod.mk.inj h
      exact ⟨rfl, isWritable_ofValue v⟩
    · exact isWritable_of_mem_ofMembers members k d h

end

end Document

/-- A property that lists and maps pass on to what they hold, and that what holds itself lacks. -/
structure Document.IsInherited (P : Document → Prop) : Prop where
  item : ∀ {d items}, d.items? = some items → P d → ∀ e ∈ items, P e
  member : ∀ {members}, P (.map members) → ∀ {k e}, (k, e) ∈ members → P e
  circle : ¬P .circle

theorem Document.isInherited_isWritable : IsInherited IsWritable where
  item {d items} hitems hd e he := by
    cases d with
    | list items' => exact isWritable_list.1 hd e (Option.some.inj hitems ▸ he)
    | set scalars =>
      obtain rfl := Option.some.inj hitems
      obtain ⟨k, hk, rfl⟩ := List.mem_map.1 he
      exact List.findSome?_eq_none_iff.1 hd k hk
    | _ => cases hitems
  member h k e he := (isWritable_map.1 h k e he).2
  circle h := by cases h

/-- Effects whose parts have been read from documents of some property. -/
structure Effects.IsReadFrom (P : Document → Prop) (x : Effects) : Prop where
  numbers : ∀ s ∈ x.shadow, ∀ m ∈ s.x.getD [] ++ s.y.getD [] ++ s.blur.getD [],
    ∃ d, Check.number d = .valid m.2 ∧ P d
  colors : ∀ s ∈ x.shadow, ∀ m ∈ s.color.getD [], ∀ d ∈ m.2, P d
  radii : ∀ radius ∈ x.borderRadius, ∀ m ∈ radius, P m.2

namespace Check

open Checked

variable {P : Document → Prop} (hP : Document.IsInherited P)

include hP

/-- The members from which a structure has been read. -/
theorem members_of_closed {α : Type} {fields : List (List String)}
    {check : List (Scalar × Document) → Checked α} {d : Document} {a : α}
    (h : closed fields check d = .valid a) (hd : P d) :
    ∃ members, check members = .valid a ∧ P (.map members) := by
  obtain ⟨members, hcheck, rfl | rfl⟩ := exists_of_closed h
  · exact ⟨members, hcheck, hd⟩
  · exact absurd hd hP.circle

/-- The document from which a field has been read. -/
theorem document_of_optional {α : Type} {members : List (Scalar × Document)}
    {names : List String} {check : Document → Checked α} {a : α}
    (h : optional members names check = .valid (some a)) (hmembers : P (.map members)) :
    ∃ d, check d = .valid a ∧ P d := by
  obtain ⟨_, d, hget, ha⟩ := exists_of_optional h
  exact ⟨d, ha, hP.member hmembers (Document.mem_of_get? hget)⟩

theorem document_of_mem_mapOf {κ ν : Type} {key : Scalar → Checked κ}
    {value : Document → Checked ν} {d : Document} {r : List (κ × ν)}
    (h : mapOf key value d = .valid r) (hd : P d) {m : κ × ν} (hm : m ∈ r) :
    ∃ d, value d = .valid m.2 ∧ P d := by
  obtain ⟨_, k, e, rfl, he, -, hv⟩ := exists_of_mem_mapOf h hm
  exact ⟨e, hv, hP.member hd he⟩

/-- The documents from which the values of a field by name have been read. -/
theorem document_of_mem_namedOf {κ ν : Type} [DecidableEq κ] {ofName? : String → Option κ}
    {value : Document → Checked ν} {members : List (Scalar × Document)} {names : List String}
    {r? : Option (List (κ × ν))} (h : optional members names (namedOf ofName? value) = .valid r?)
    (hmembers : P (.map members)) {m : κ × ν} (hm : m ∈ r?.getD []) :
    ∃ d, value d = .valid m.2 ∧ P d := by
  cases r? with
  | none => cases hm
  | some r =>
    obtain ⟨d, hr, hd⟩ := document_of_optional hP h hmembers
    obtain ⟨all, hall, rfl⟩ := map_eq_valid.1 hr
    exact document_of_mem_mapOf hP hall hd (mem_of_mem_merged hm)

theorem document_of_mem_listOf {d : Document} {items : List Document}
    (h : listOf .valid d = .valid items) (hd : P d) : ∀ e ∈ items, P e := by
  intro e he
  obtain ⟨found, e', hfound, he', heq⟩ := exists_of_mem_listOf h he
  cases heq
  exact hP.item hfound hd _ he'

/-- The numbers and colors of a shadow. -/
theorem parts_of_shadow {d : Document} {s : Shadow} (h : shadow d = .valid s) (hd : P d) :
    (∀ m ∈ s.x.getD [] ++ s.y.getD [] ++ s.blur.getD [], ∃ d, number d = .valid m.2 ∧ P d)
      ∧ ∀ m ∈ s.color.getD [], ∀ d ∈ m.2, P d := by
  obtain ⟨members, hcheck, hmembers⟩ := members_of_closed hP h hd
  simp only [seq_eq_valid, functor_map_eq_valid] at hcheck
  obtain ⟨_, color, ⟨_, blur, ⟨_, y, ⟨x, hx, rfl⟩, hy, rfl⟩, hblur, rfl⟩, hcolor, rfl⟩ := hcheck
  constructor
  · intro m hm
    simp only [List.mem_append] at hm
    obtain (hm | hm) | hm := hm
    · exact document_of_mem_namedOf hP hx hmembers hm
    · exact document_of_mem_namedOf hP hy hmembers hm
    · exact document_of_mem_namedOf hP hblur hmembers hm
  · intro m hm
    obtain ⟨d', hitems, hd'⟩ := document_of_mem_namedOf hP hcolor hmembers hm
    exact document_of_mem_listOf hP hitems hd'

theorem documents_of_borderRadius {d : Document} {radius : Dict Document}
    (h : borderRadius d = .valid radius) (hd : P d) : ∀ m ∈ radius, P m.2 := by
  have hdict : dictOf .valid d = .valid radius := (andThen_rule_eq_valid.1 h).1
  obtain ⟨members, hmembers, rfl⟩ := map_eq_valid.1 hdict
  intro m hm
  rcases Dict.mem_of_mem_merge hm with hm | hm
  · cases hm
  · obtain ⟨v', hv, hv'⟩ := document_of_mem_mapOf hP hmembers hd hm
    cases hv
    exact hv'

theorem isReadFrom_of_effects {d : Document} {x : Effects} (h : effects d = .valid x) (hd : P d) :
    x.IsReadFrom P := by
  obtain ⟨members, hcheck, hmembers⟩ := members_of_closed hP h hd
  simp only [seq_eq_valid, functor_map_eq_valid] at hcheck
  obtain ⟨_, radius?, ⟨shadow?, hshadow, rfl⟩, hradius, rfl⟩ := hcheck
  have hparts : ∀ s ∈ shadow?, ∃ d, shadow d = .valid s ∧ P d := by
    rintro s rfl
    exact document_of_optional hP hshadow hmembers
  refine ⟨fun s hs => ?numbers, fun s hs => ?colors, fun radius hr => ?radii⟩
  case numbers =>
    obtain ⟨d', hs', hd'⟩ := hparts s hs
    exact (parts_of_shadow hP hs' hd').1
  case colors =>
    obtain ⟨d', hs', hd'⟩ := hparts s hs
    exact (parts_of_shadow hP hs' hd').2
  case radii =>
    obtain rfl := Option.mem_def.1 hr
    obtain ⟨d', hr', hd'⟩ := document_of_optional hP hradius hmembers
    exact documents_of_borderRadius hP hr' hd'

theorem isReadFrom_of_element {d : Document} {e : Element} (h : element d = .valid e) (hd : P d)
    {x : Effects} (hx : e.effects = some x) : x.IsReadFrom P := by
  obtain ⟨members, hcheck, hmembers⟩ := members_of_closed hP h hd
  simp only [seq_eq_valid, functor_map_eq_valid] at hcheck
  obtain ⟨_, effects?, ⟨_, _, ⟨_, _, ⟨_, -, rfl⟩, -, rfl⟩, -, rfl⟩, heffects, rfl⟩ := hcheck
  obtain rfl : effects? = some x := hx
  obtain ⟨d', hd', hP'⟩ := document_of_optional hP heffects hmembers
  exact isReadFrom_of_effects hP hd' hP'

end Check

/-- Effects read from what can be written out can be written out. -/
theorem Effects.IsReadFrom.isWritable {x : Effects} (h : x.IsReadFrom Document.IsWritable) :
    ∀ f ∈ x.free, f.IsWritable := by
  intro f hf
  rcases List.mem_append.1 hf with hf | hf
  · cases hs : x.shadow with
    | none => simp [hs] at hf
    | some s =>
      rw [hs] at hf
      obtain ⟨m, hm, rfl⟩ := List.mem_map.1 hf
      exact Document.isWritable_list.2 (h.colors s hs m hm)
  · obtain ⟨radius, hr, rfl⟩ := Option.map_eq_some_iff.1 (Option.mem_toList.1 hf)
    exact Document.isWritable_freeMap.2 fun k d hm => h.radii radius hr (k, d) hm

namespace StyleKey

/-- Only a scope that does not fit the state, and a reference, can keep a key from being written. -/
theorem exists_encode {c : Coordinates} {state : Option String}
    (hstate : writtenState c.state c.controlState = .ok state) (href : c.isRef = false) :
    ∃ key, encode c = .ok key := by
  simp only [encode, hstate, href, bind_eq_ok, Except.ok.injEq, exists_eq_left']
  cases Location.known c.size with
  | some size =>
    dsimp only
    split <;> exact ⟨_, rfl⟩
  | none =>
    dsimp only
    split <;> exact ⟨_, rfl⟩

theorem writtenState_plain (state : Option String) : writtenState state false = .ok state := rfl

theorem writtenState_control {s : InteractionState} (hs : s ∈ InteractionState.control) :
    writtenState (some s.name) true = .ok (some (selectedLabel s)) := by
  cases s with
  | rest | hover | pressed | focus => rfl
  | disabled | readOnly | selected => exact absurd hs (by decide)

end StyleKey

namespace Keys

variable {scope : Scope}

def Scope.IsWritten (scope : Scope) : Prop :=
  ∃ state, StyleKey.writtenState scope.state scope.controlState = .ok state

theorem exists_sizedKey (hscope : scope.IsWritten) (property bucket : String) {value : Value}
    (hvalue : value.IsWritable) (size breakpoint : Option String) :
    ∃ k, sizedKey property scope bucket value size breakpoint = .ok k := by
  obtain ⟨state, hstate⟩ := hscope
  obtain ⟨key, hkey⟩ := StyleKey.exists_encode (c :=
    { property, value, size, breakpoint, state := scope.state
      controlState := scope.controlState }) hstate rfl
  exact ⟨(bucket, key), sizedKey_eq_ok.2 ⟨rfl, hkey, hvalue⟩⟩

theorem exists_keysAtSize (hscope : scope.IsWritten) (property size : String) {v : Value}
    (hv : v.IsWritable) :
    ∃ keys, keysAtSize property scope size v = .ok keys := by
  cases v with
  | number n =>
    obtain ⟨k, hk⟩ := exists_sizedKey hscope property size hv (writtenSize size) none
    exact ⟨[k], bind_eq_ok.2 ⟨k, hk, rfl⟩⟩
  | map widths =>
    refine exists_mapM_ok fun m hm => ?_
    have hm := Value.isWritable_map.1 hv m hm
    dsimp only
    split <;> exact exists_sizedKey hscope _ _ hm _ _
  | null | bool | text | list => exact ⟨[], rfl⟩

theorem exists_responsive (hscope : scope.IsWritten) (property : String) {v : Value}
    (hv : v.IsWritable) :
    ∃ keys, responsive property scope v = .ok keys := by
  cases v with
  | number n =>
    obtain ⟨k, hk⟩ := exists_sizedKey hscope property allSizes hv none none
    exact ⟨[k], bind_eq_ok.2 ⟨k, hk, rfl⟩⟩
  | map sizes =>
    obtain ⟨parts, hparts⟩ : ∃ parts, sizes.mapM (fun m => keysAtSize property scope m.1 m.2)
        = .ok parts :=
      exists_mapM_ok fun m hm =>
        exists_keysAtSize hscope property m.1 (Value.isWritable_map.1 hv m hm)
    exact ⟨parts.flatten, bind_eq_ok.2 ⟨parts, hparts, rfl⟩⟩
  | null | bool | text | list => exact ⟨[], rfl⟩

theorem exists_radiusInState (hscope : scope.IsWritten) (label : String) {value : Option Value}
    (hvalue : ∀ v ∈ value, v.IsWritable) :
    ∃ keys, radiusInState label scope value = .ok keys := by
  cases value with
  | none => exact ⟨[], rfl⟩
  | some v =>
    obtain ⟨keys, hkeys⟩ := exists_responsive hscope ScaleProperty.borderRadius.name (hvalue v rfl)
    exact ⟨_, bind_eq_ok.2 ⟨keys, hkeys, rfl⟩⟩

theorem isWritable_of_member? {members : Dict Value} (h : (Value.map members).IsWritable)
    (k : String) : ∀ v ∈ Value.member? members k, v.IsWritable :=
  fun _ hv => h.of_get? (Option.filter_eq_some_iff.1 hv).1

theorem isWritable_membersAt {members : Dict Value} (h : (Value.map members).IsWritable)
    (k : String) : (Value.map (((members.getD k .null).map?).getD [])).IsWritable := by
  rw [Dict.getD]
  cases hk : members.get? k with
  | none => exact Value.isWritable_map.2 (List.forall_mem_nil _)
  | some v =>
    cases v with
    | map inner => exact h.of_get? hk
    | null | bool | number | text | list => exact Value.isWritable_map.2 (List.forall_mem_nil _)

theorem exists_ofBorderRadius {radius : Dict Value} (h : (Value.map radius).IsWritable) :
    ∃ b, ofBorderRadius radius = .ok b := by
  obtain ⟨plain, hplain⟩ : ∃ plain, InteractionState.inEffect.mapM (fun s =>
      radiusInState s.name { state := some s.name } (Value.member? radius s.name)) = .ok plain :=
    exists_mapM_ok fun s _ =>
      exists_radiusInState ⟨_, StyleKey.writtenState_plain _⟩ s.name (isWritable_of_member? h _)
  obtain ⟨below, hbelow⟩ : ∃ below, InteractionState.control.mapM (fun s =>
      radiusInState (selectedLabel s) { state := some s.name, controlState := true }
        (Value.member? (((radius.getD InteractionState.selected.name .null).map?).getD []) s.name))
      = .ok below :=
    exists_mapM_ok fun s hs =>
      exists_radiusInState ⟨_, StyleKey.writtenState_control hs⟩ (selectedLabel s)
        (isWritable_of_member? (isWritable_membersAt h _) _)
  exact ⟨_, bind_eq_ok.2 ⟨plain, hplain, bind_eq_ok.2 ⟨below, hbelow, rfl⟩⟩⟩

theorem isWritable_shadowValues {shadow : Dict Value} (h : (Value.map shadow).IsWritable)
    (state : String) : (Value.list (shadowValues shadow state)).IsWritable := by
  have hdefaults : ∀ m ∈ shadowParts, m.2.IsWritable := by decide
  rw [Value.isWritable_list]
  intro v hv
  obtain ⟨⟨part, default⟩, hpart, rfl⟩ := List.mem_map.1 hv
  have hvalues := isWritable_of_member? (isWritable_membersAt h part)
  simp only [shadowValue, shadowPart]
  cases hstate : Value.member? (((shadow.getD part .null).map?).getD []) state with
  | some v => exact hvalues state v hstate
  | none =>
    cases hrest : Value.member? (((shadow.getD part .null).map?).getD [])
        InteractionState.rest.name with
    | some v => exact hvalues _ v hrest
    | none => exact hdefaults _ hpart

theorem exists_shadowKey {shadow : Dict Value} (h : (Value.map shadow).IsWritable)
    (state : String) : ∃ k, shadowKey shadow state = .ok k := by
  obtain ⟨key, hkey⟩ := StyleKey.exists_encode (c :=
    { property := "shadow", state := some state
      value := .text (StyleKey.jsonText (.list (shadowValues shadow state))) })
    (StyleKey.writtenState_plain _) rfl
  exact ⟨(state, key), shadowKey_eq_ok.2 ⟨rfl, hkey, isWritable_shadowValues h state⟩⟩

def givenParts (shadow : Dict Value) : List Value :=
  (shadowParts.map fun (part, _) => shadow.getD part .null).filter Value.isGiven

theorem shadowFault?_eq_none {shadow : Dict Value}
    (h : ∀ v ∈ givenParts shadow, ∃ m, v = .map m) : shadowFault? shadow = none := by
  have helements : ∀ v ∈ givenParts shadow,
      v.elements?.isNone = false ∧ v.map?.isNone = false := by
    intro v hv
    obtain ⟨m, rfl⟩ := h v hv
    exact ⟨rfl, rfl⟩
  rw [shadowFault?, if_neg, if_neg]
  · intro h
    obtain ⟨v, hv, hnone⟩ := List.any_eq_true.1 h
    exact absurd hnone (by simp [(helements v hv).2])
  · intro h
    obtain ⟨v, hv, hnone⟩ := List.any_eq_true.1 h
    exact absurd hnone (by simp [(helements v hv).1])

theorem shadowFault?_of_maps {shadow : Dict Value}
    (h : ∀ part v, shadow.get? part = some v → ∃ m, v = .map m) : shadowFault? shadow = none := by
  apply shadowFault?_eq_none
  intro v hv
  obtain ⟨hv, hgiven⟩ := List.mem_filter.1 hv
  obtain ⟨⟨part, _⟩, -, rfl⟩ := List.mem_map.1 hv
  dsimp only [Dict.getD] at hgiven ⊢
  cases hpart : shadow.get? part with
  | none => simp [hpart, Value.isGiven] at hgiven
  | some v => exact h part v hpart

theorem exists_ofShadow {shadow : Dict Value} (hshadow : (Value.map shadow).IsWritable)
    (h : ∀ part v, shadow.get? part = some v → ∃ m, v = .map m) :
    ∃ b, ofShadow shadow = .ok b := by
  obtain ⟨keys, hkeys⟩ : ∃ keys, (shadowStates shadow).mapM (shadowKey shadow) = .ok keys :=
    exists_mapM_ok fun state _ => exists_shadowKey hshadow state
  exact ⟨_, by rw [ofShadow, shadowFault?_of_maps h]; exact bind_eq_ok.2 ⟨keys, hkeys, rfl⟩⟩

theorem exists_ofPart {effects : Dict Value} {name : String}
    {keys : Dict Value → Except CompileError Buckets}
    (h : ∀ m, effects.get? name = some (.map m) → ∃ b, keys m = .ok b) :
    ∃ b, ofPart effects name keys = .ok b := by
  rw [ofPart]
  split
  · next m hm =>
    refine h m ?_
    obtain ⟨hmap, -⟩ := Option.filter_eq_some_iff.1 hm
    rw [Dict.getD] at hmap
    cases hname : effects.get? name with
    | none =>
      rw [hname] at hmap
      cases hmap
    | some v =>
      rw [hname] at hmap
      cases v with
      | map members =>
        cases hmap
        rfl
      | _ => cases hmap
  · exact ⟨[], rfl⟩

theorem exists_map_of_shadow (free : Document → Value) (s : Shadow) {part : String} {v : Value}
    (h : Dict.get? (s.membersWith free) part = some v) : ∃ m, v = .map m := by
  simp only [Shadow.membersWith, Dict.get?_list_append, get?_optionalMember,
    Option.or_eq_some_iff] at h
  rcases h with ((h | ⟨-, h⟩) | ⟨-, h⟩) | ⟨-, h⟩
  all_goals
    obtain ⟨-, h⟩ := Option.ite_none_right_eq_some.1 h
    obtain ⟨states, -, rfl⟩ := Option.map_eq_some_iff.1 h
    exact ⟨_, rfl⟩

/-- Effects that are written out, without integers that are too long, have keys. -/
theorem exists_ofEffects {free : Document → Value} {x : Effects}
    (h : (Value.map (x.membersWith free)).IsWritable) :
    ∃ b, ofEffects (x.membersWith free) = .ok b := by
  obtain ⟨shadow, hshadow⟩ : ∃ b, ofPart (x.membersWith free) "shadow" ofShadow = .ok b := by
    refine exists_ofPart fun m hm => ?_
    have hwritable : (Value.map m).IsWritable := h.of_get? hm
    have hshadow : (x.shadow.map fun s => Value.map (s.membersWith free)) = some (.map m) := by
      simpa [Effects.membersWith, Dict.get?_list_append, get?_optionalMember] using hm
    obtain ⟨s, -, hs⟩ := Option.map_eq_some_iff.1 hshadow
    cases hs
    exact exists_ofShadow hwritable fun part v => exists_map_of_shadow free s
  obtain ⟨radius, hradius⟩ : ∃ b, ofPart (x.membersWith free) "borderRadius" ofBorderRadius
      = .ok b := exists_ofPart fun m hm => exists_ofBorderRadius (h.of_get? hm)
  exact ⟨_, bind_eq_ok.2 ⟨_, hshadow, bind_eq_ok.2 ⟨_, hradius, rfl⟩⟩⟩

end Keys

/-- No integer of the effects is too long to be written. -/
def Effects.HasShortIntegers (x : Effects) : Prop :=
  (Value.map (x.membersWith Document.numeralsOnly)).IsWritable

instance : DecidablePred Effects.HasShortIntegers :=
  fun _ => inferInstanceAs (Decidable (Value.IsWritable _))

namespace Compiled

/-- The effects of an element that is read from what can be written out have keys, unless one of
their integers is too long. -/
theorem exists_effectKeys {d : Document} {e : Element} (h : Check.element d = .valid e)
    (hd : d.IsWritable) (hshort : ∀ x ∈ e.effects, x.HasShortIntegers) :
    ∃ b, effectKeys e = .ok b := by
  cases hx : e.effects with
  | none => exact ⟨none, by rw [effectKeys, hx]; rfl⟩
  | some x =>
    have hmembers : x.members = .ok (x.membersWith Document.numeralsOnly) := by
      rw [Effects.members, List.findSome?_eq_none_iff.2
        (Check.isReadFrom_of_element Document.isInherited_isWritable h hd hx).isWritable]
    have heffects : (e.effects.mapM Effects.members).mapError CompileError.data
        = .ok (some (x.membersWith Document.numeralsOnly)) := by
      rw [hx, mapError_eq_ok, mapM_option_eq_ok]
      exact .inr ⟨x, _, rfl, rfl, hmembers⟩
    obtain ⟨buckets?, hbuckets⟩ : ∃ b?,
        (filled (some (x.membersWith Document.numeralsOnly))).mapM Keys.ofEffects = .ok b? := by
      cases hfilled : filled (some (x.membersWith Document.numeralsOnly)) with
      | none => exact ⟨none, rfl⟩
      | some members =>
        obtain rfl := Option.some.inj (filled_eq_some hfilled)
        obtain ⟨b, hb⟩ := Keys.exists_ofEffects (hshort x hx)
        exact ⟨some b, mapM_option_eq_ok.2 (.inr ⟨_, b, rfl, rfl, hb⟩)⟩
    exact ⟨_, bind_eq_ok.2 ⟨_, heffects, bind_eq_ok.2 ⟨_, hbuckets, rfl⟩⟩⟩

end Compiled
end AtomicCss

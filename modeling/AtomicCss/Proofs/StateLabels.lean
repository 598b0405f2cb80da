import AtomicCss.Proofs.Filing
import AtomicCss.Proofs.KeyReading
import AtomicCss.Proofs.ShadowKeys
import AtomicCss.Proofs.TrackClasses

/-!
# Labels and the states of keys

The effects and the colors of an element are filed under labels that name states, and class maps
tell the selected scope by the label. The same states are written into the keys, and rules read them
off the keys. The two are always the same states, whatever sizes, breakpoints and values follow in
the key.
-/
namespace AtomicCss

/-- The states that a label names: its parts other than the state at rest. -/
def labelStates (label : String) : List String :=
  ((Text.splitOn ':' label.toList).map String.ofList).filter (· != InteractionState.rest.name)

/-- The label of a state, in the selected scope or out of it. -/
def InteractionState.label (s : InteractionState) (controlState : Bool) : String :=
  if controlState then selectedLabel s else s.name

theorem isSelectedLabel_iff {label : String} :
    isSelectedLabel label = true ↔ label = "selected" ∨ "selected:".toList <+: label.toList := by
  rw [isSelectedLabel, Bool.or_eq_true, beq_iff_eq, String.startsWith_string_iff]

namespace StyleKey

theorem exists_cutString {sep : String} (hsep : sep.toList ≠ []) (front rest : String) :
    ∃ m, cutString sep (front ++ (sep ++ rest)) = some m := by
  have hcut : ∀ cs, (Text.cut sep.toList (cs ++ (sep.toList ++ rest.toList))).isSome = true := by
    intro cs
    induction cs with
    | nil => rw [List.nil_append, Text.cut_self hsep, Option.isSome_some]
    | cons c cs ih =>
      rw [List.cons_append, Text.cut]
      split
      · rfl
      · rwa [Option.isSome_map]
  obtain ⟨m, hm⟩ := Option.isSome_iff_exists.1 (hcut front.toList)
  exact ⟨_, by rw [cutString, String.toList_append, String.toList_append, hm, Option.map_some]⟩

variable {stem : String}

/-- The states are read off what stands before the size and the value, whatever these are. -/
theorem exists_decode_of_stem (hscore : '_' ∉ stem.toList) (hplus : '+' ∉ stem.toList)
    (part? : Option String) (value : String) : ∃ d,
      decode (stem ++ ((part?.map ("++" ++ ·)).getD "" ++ ("__" ++ value))) = .ok d
        ∧ d.stateTokens = stateTokens ((splitState stem).2.2.getD "") := by
  cases part? with
  | none =>
    have hcut : cutString "__" (stem ++ ("" ++ ("__" ++ value))) = some (stem, value) := by
      rw [String.empty_append]
      exact cutString_append_self ['_'] hscore value
    have hsize : cutString "++" stem = none := cutString_eq_none ['+'] hplus
    simp only [decode, Option.map_none, Option.getD_none, hcut, splitSize, hsize]
    exact ⟨_, rfl, rfl⟩
  | some part =>
    -- the first mark of a value stands behind that of the size, maybe inside the size
    obtain ⟨⟨front, rest⟩, hrest⟩ := exists_cutString (by decide : "__".toList ≠ []) part value
    have hcut : cutString "__" (stem ++ ("++" ++ part ++ ("__" ++ value)))
        = some (stem ++ ("++" ++ front), rest) := by
      rw [String.append_assoc]
      refine (cutString_append ['_'] hscore _).trans ?_
      rw [show cutString (String.ofList ('_' :: ['_'])) ("++" ++ (part ++ ("__" ++ value))) = _ from
        cutString_append ['_'] (by decide : '_' ∉ "++".toList) _]
      have hrest' : cutString (String.ofList ('_' :: ['_'])) (part ++ ("__" ++ value))
        = some (front, rest) := hrest
      rw [hrest']
      rfl
    have hsize : cutString "++" (stem ++ ("++" ++ front)) = some (stem, front) :=
      cutString_append_self ['+'] hplus front
    simp only [decode, Option.map_some, Option.getD_some, hcut, splitSize, hsize]
    cases cutString "::" front <;> exact ⟨_, rfl, rfl⟩

def Coordinates.unsized (c : Coordinates) : Coordinates :=
  { c with isRef := c.isRef && (Location.known c.size).isNone, size := none, breakpoint := none }

theorem exists_sizePart (size : String) (breakpoint : Option String) :
    ∃ part, sizePart size breakpoint = "++" ++ part := by
  rw [sizePart]
  split
  · exact ⟨_, by rw [String.append_assoc, String.append_assoc]⟩
  · exact ⟨_, rfl⟩

section Tokens

variable {c : Coordinates} {key : String} (hproperty : c.property ∈ propertyNames)
  (hstate : ∀ s, c.state = some s → ∃ t : InteractionState, t.name = s)
include hproperty hstate

theorem inVocabulary_unsized : c.unsized.InVocabulary where
  property := hproperty
  state := hstate
  size := by simp [Coordinates.unsized]
  breakpoint := by simp [Coordinates.unsized]

/-- A key begins like one without a size, and a reference has a state. -/
theorem exists_eq_of_encode (h : encode c = .ok key) :
    (∃ part? : Option String, key
        = c.unsized.stem ++ ((part?.map ("++" ++ ·)).getD "" ++ ("__" ++ valueText c.value)))
      ∧ (c.unsized.isReference = true → c.unsized.stateText.isSome = true) := by
  have hc := inVocabulary_unsized hproperty hstate
  simp only [encode, bind_eq_ok] at h
  obtain ⟨state, hwritten, h⟩ := h
  obtain ⟨hfilter, hactive⟩ := hc.filter_writtenState hwritten
  have hisRef : c.unsized.isReference = (c.isRef && (Location.known c.size).isNone) := by
    simp [Coordinates.isReference, Coordinates.unsized]
  rw [Coordinates.stem, hisRef]
  cases hsize : Location.known c.size with
  | some size =>
    obtain ⟨part, hpart⟩ := exists_sizePart size c.breakpoint
    rw [hsize] at h
    dsimp only at h
    rw [hfilter, hpart] at h
    refine ⟨⟨some part, ?_⟩, by simp⟩
    cases htext : c.unsized.stateText with
    | some s =>
      rw [htext] at h
      simp [← pure_eq_ok.1 h, String.append_assoc, Coordinates.unsized]
    | none =>
      rw [htext] at h
      simp [← pure_eq_ok.1 h, String.append_assoc, Coordinates.unsized]
  | none =>
    rw [hsize] at h
    dsimp only at h
    rw [hactive] at h
    cases htext : c.unsized.stateText with
    | some s =>
      rw [htext] at h
      exact ⟨⟨none, by simp [← pure_eq_ok.1 h, String.append_assoc, Coordinates.unsized]⟩, by simp⟩
    | none =>
      rw [htext] at h
      cases href : c.isRef with
      | true =>
        rw [href] at h
        cases h
      | false =>
        rw [href] at h
        exact ⟨⟨none, by simp [← pure_eq_ok.1 h, Coordinates.unsized]⟩, by simp⟩

/-- The states are read off a key as they were written, whatever its size, its breakpoint and its
value are. -/
theorem exists_decode_of_encode (h : encode c = .ok key) :
    ∃ d, decode key = .ok d ∧ d.stateTokens = c.tokens := by
  have hc := inVocabulary_unsized hproperty hstate
  obtain ⟨state, hwritten, -⟩ := bind_eq_ok.1 h
  obtain ⟨⟨part?, rfl⟩, href⟩ := exists_eq_of_encode hproperty hstate h
  obtain ⟨d, hd, htokens⟩ := exists_decode_of_stem hc.notMem_stem.1 hc.notMem_stem.2 part?
    (valueText c.value)
  refine ⟨d, hd, htokens.trans ?_⟩
  rw [hc.splitState_stem href]
  exact hc.stateTokens_stateText hwritten

end Tokens

/-- A key is read as one in the states that its label names. So is every rule of it, and the label
is of the selected scope if the key is. -/
structure ReadsAs (label key : String) (d : Decoded) : Prop where
  decode : decode key = .ok d
  tokens : d.stateTokens = labelStates label
  selected : InteractionState.selected.name ∈ d.stateTokens ↔ isSelectedLabel label = true
  rules : ∀ (o : RuleOptions) className r, Rule.ofKey o key className = .ok r →
    ∃ p, Rule.HasCoordinates o className d p r

/-- The states of a key are those that a label names. -/
def HasLabel (label key : String) : Prop := ∃ d, ReadsAs label key d

def isSelected (key : String) : Bool :=
  match decode key with
  | .ok d => d.stateTokens.contains InteractionState.selected.name
  | .error _ => false

theorem HasLabel.isSelected_eq {label key : String} (h : HasLabel label key) :
    isSelected key = isSelectedLabel label := by
  obtain ⟨d, hd⟩ := h
  rw [isSelected, hd.decode, Bool.eq_iff_iff, List.contains_iff_mem, hd.selected]

theorem hasLabel_of_encode {c : Coordinates} {key : String} {s : InteractionState}
    (hproperty : c.property ∈ propertyNames) (hstate : c.state = some s.name)
    (h : encode c = .ok key) : HasLabel (s.label c.controlState) key := by
  obtain ⟨d, hd, htokens⟩ := exists_decode_of_encode hproperty
    (fun _ h => ⟨s, Option.some.inj (hstate.symm.trans h)⟩) h
  have hlabel : c.tokens = labelStates (s.label c.controlState)
      ∧ (InteractionState.selected.name ∈ c.tokens
        ↔ isSelectedLabel (s.label c.controlState) = true) := by
    rw [Coordinates.tokens, Coordinates.activeState, hstate, isSelectedLabel_iff]
    cases c.controlState <;> cases s <;> decide
  rw [← htokens] at hlabel
  refine ⟨d, hd, hlabel.1, hlabel.2, fun o className r hr => ?_⟩
  obtain ⟨d', hd', p, hp, -⟩ := Rule.exists_hasCoordinates hr
  obtain rfl := Except.ok.inj (hd.symm.trans hd')
  exact ⟨p, hp⟩

end StyleKey

namespace Keys

/-- Every key has the label it is filed under. -/
def AreLabelled (b : Buckets) : Prop :=
  ∀ label keys, (label, keys) ∈ b → ∀ key ∈ keys, StyleKey.HasLabel label key

theorem areLabelled_file {keys : List (String × String)}
    (h : ∀ m ∈ keys, StyleKey.HasLabel m.1 m.2) : AreLabelled (file keys []) := by
  intro label items hm key hk
  refine h (label, key) (mem_getD_file.1 ?_)
  rwa [Dict.getD_of_mem (nodup_keys_file keys) hm]

theorem areLabelled_foldl_append {b : Buckets} (h : AreLabelled b) :
    AreLabelled (b.foldl (fun b (label, keys) => b.append label keys) []) := by
  intro label items hm key hk
  have hnodup := Dict.nodup_keys_foldl_append b Dict.nodup_keys_nil
  rw [← Dict.getD_of_mem hnodup hm, Dict.mem_getD_foldl_append] at hk
  obtain hk | ⟨keys, hm, hk⟩ := hk
  · cases hk
  · exact h label keys hm key hk

theorem areLabelled_ofShadow {shadow : Dict Value} {b : Buckets} (h : ofShadow shadow = .ok b)
    (hstates : ∀ label ∈ shadowStates shadow, ∃ s : InteractionState, s.name = label) :
    AreLabelled b := by
  rw [ofShadow] at h
  split at h
  · cases h
  · simp only [bind_eq_ok, pure_eq_ok] at h
    obtain ⟨keys, hkeys, rfl⟩ := h
    refine areLabelled_file fun m hm => ?_
    obtain ⟨label, hlabel, hkey⟩ := (mem_mapM_ok hkeys).1 hm
    obtain ⟨s, rfl⟩ := hstates label hlabel
    obtain ⟨hstate, hkey, -⟩ := shadowKey_eq_ok.1 hkey
    rw [hstate]
    exact StyleKey.hasLabel_of_encode (by decide : "shadow" ∈ StyleKey.propertyNames) rfl hkey

theorem hasLabel_of_radiusInState (s : InteractionState) (controlState : Bool)
    {value : Option Value} {keys : List (String × String)}
    (h : radiusInState (s.label controlState) { state := some s.name, controlState } value
      = .ok keys) {m : String × String} (hm : m ∈ keys) : StyleKey.HasLabel m.1 m.2 := by
  cases value with
  | none =>
    cases h
    cases hm
  | some v =>
    simp only [radiusInState, bind_eq_ok, pure_eq_ok] at h
    obtain ⟨sized, hsized, rfl⟩ := h
    obtain ⟨k, hk, rfl⟩ := List.mem_map.1 hm
    obtain ⟨_, _, _, hkey⟩ := isKeyOf_responsive hsized hk
    have hproperty : ScaleProperty.borderRadius.name ∈ StyleKey.propertyNames := by decide
    exact StyleKey.hasLabel_of_encode hproperty rfl hkey

theorem areLabelled_ofBorderRadius {radius : Dict Value} {b : Buckets}
    (h : ofBorderRadius radius = .ok b) : AreLabelled b := by
  simp only [ofBorderRadius, bind_eq_ok, pure_eq_ok] at h
  obtain ⟨plain, hplain, below, hbelow, rfl⟩ := h
  refine areLabelled_file fun m hm => ?_
  obtain ⟨keys, hkeys, hm⟩ := List.mem_flatten.1 hm
  rcases List.mem_append.1 hkeys with hkeys | hkeys
  · obtain ⟨s, -, hs⟩ := (mem_mapM_ok hplain).1 hkeys
    exact hasLabel_of_radiusInState s false hs hm
  · obtain ⟨s, -, hs⟩ := (mem_mapM_ok hbelow).1 hkeys
    exact hasLabel_of_radiusInState s true hs hm

/-- The keys of a part of the effects are those of its members, if it is there. -/
theorem ofPart_cases {effects : Dict Value} {name : String}
    {keys : Dict Value → Except CompileError Buckets} {b : Buckets}
    (h : ofPart effects name keys = .ok b) :
    b = [] ∨ ∃ m, effects.get? name = some (.map m) ∧ keys m = .ok b := by
  rw [ofPart] at h
  split at h
  · next m hm =>
    refine .inr ⟨m, ?_, h⟩
    obtain ⟨hmap, -⟩ := Option.filter_eq_some_iff.1 hm
    rw [Dict.getD] at hmap
    cases hname : effects.get? name with
    | none =>
      rw [hname] at hmap
      cases hmap
    | some v =>
      rw [hname] at hmap
      cases v with
      | map members =>
        cases hmap
        rfl
      | _ => cases hmap
  · exact .inl (pure_eq_ok.1 h).symm

theorem areLabelled_ofEffects {free : Document → Value} {x : Effects} {b : Buckets}
    (h : ofEffects (x.membersWith free) = .ok b) : AreLabelled b := by
  simp only [ofEffects, bind_eq_ok, pure_eq_ok] at h
  obtain ⟨shadow, hshadow, radius, hradius, rfl⟩ := h
  refine areLabelled_foldl_append fun label keys hm => ?_
  rcases List.mem_append.1 hm with hm | hm
  · obtain rfl | ⟨m, hget, h⟩ := ofPart_cases hshadow
    · cases hm
    · have hs : (x.shadow.map fun s => Value.map (s.membersWith free)) = some (.map m) := by
        simpa [Effects.membersWith, Dict.get?_list_append, get?_optionalMember] using hget
      obtain ⟨s, -, hs⟩ := Option.map_eq_some_iff.1 hs
      cases hs
      refine areLabelled_ofShadow h (fun label hlabel => ?_) label keys hm
      obtain ⟨state, -, hstate⟩ := mem_shadowStates.1 hlabel
      exact ⟨state, hstate⟩
  · obtain rfl | ⟨m, -, h⟩ := ofPart_cases hradius
    · cases hm
    · exact areLabelled_ofBorderRadius h label keys hm

end Keys

namespace Compiled.SectionsOf

variable {e : Element} {entry : Entry} {section? : Option Keys.PaletteSection}
  (h : SectionsOf e entry section?)
include h

theorem areLabelled_effects : Keys.AreLabelled (entry.effects.getD []) := by
  obtain ⟨effects, buckets, heffects, hbuckets, hentry⟩ := h.effects
  intro label keys hm
  rw [hentry] at hm
  obtain ⟨-, rfl⟩ | ⟨members, b, hfilled, rfl, hof⟩ := mapM_option_eq_ok.1 hbuckets
  · cases hm
  · obtain rfl := filled_eq_some hfilled
    obtain ⟨-, hnone⟩ | ⟨x, members', -, hsome, hmembers⟩ := mapM_option_eq_ok.1 heffects
    · cases hnone
    · obtain rfl := Option.some.inj hsome
      rw [Effects.members] at hmembers
      split at hmembers
      · cases hmembers
      · obtain rfl := Except.ok.inj hmembers
        refine Keys.areLabelled_ofEffects hof label keys ?_
        cases b with
        | nil => cases hm
        | cons => exact hm

end Compiled.SectionsOf

namespace Keys

theorem hasLabel_of_mem_emissions {colors : List AuthoredColor} {es : List Emission}
    (h : colors.mapM AuthoredColor.emit = .ok es) {em : Emission} (hem : em ∈ es) :
    StyleKey.HasLabel em.label em.key := by
  obtain ⟨c, -, hemit⟩ := (mem_mapM_ok h).1 hem
  obtain ⟨json, -, hkey, -, -, hlabel, -⟩ := AuthoredColor.emit_eq_ok.1 hemit
  rw [hlabel]
  exact StyleKey.hasLabel_of_encode (c.inVocabulary_coordinates json).property rfl hkey

theorem mem_bucketKeys_role {es : List Emission} {palette : String} {roles : Dict Buckets}
    (hp : (palette, roles) ∈ es.foldl fileByLabel []) {role key : String} :
    key ∈ Entry.bucketKeys (roles.get? role)
      ↔ ∃ em ∈ es, (em.palette = palette ∧ em.role = role) ∧ em.key = key := by
  have hkeyed := keyed_byLabel es
  have hroles := hkeyed.all palette roles hp
  have hlabelled : ∀ label, key ∈ labelled (es.foldl fileByLabel []) palette role label
      ↔ key ∈ Dict.getD (Dict.getD roles role []) label [] := by
    intro label
    rw [labelled, Dict.getD_of_mem hkeyed.nodup hp]
  have hrole : key ∈ Entry.bucketKeys (roles.get? role)
      ↔ ∃ label, key ∈ labelled (es.foldl fileByLabel []) palette role label := by
    simp only [hlabelled, Dict.getD]
    cases hget : roles.get? role with
    | none => simp [Entry.bucketKeys]
    | some labels => exact mem_bucketKeys_iff (hroles.get? hget)
  rw [hrole]
  simp only [mem_labelled]
  constructor
  · rintro ⟨label, em, hem, ⟨hpalette, hrole, -⟩, hkey⟩
    exact ⟨em, hem, ⟨hpalette, hrole⟩, hkey⟩
  · rintro ⟨em, hem, ⟨hpalette, hrole⟩, hkey⟩
    exact ⟨em.label, em, hem, ⟨hpalette, hrole, rfl⟩, hkey⟩

end Keys

namespace ClassMap

variable {names : Dict String}

/-- Buckets chosen by their labels hold the keys that the states read off them choose. -/
theorem flatMap_filter_label (names : Dict String) {b : Buckets} (h : Keys.AreLabelled b)
    (selected : Bool) :
    (b.filter fun (label, _) => isSelectedLabel label == selected).flatMap
        (fun m => m.2.map (ClassName.of names))
      = ((Entry.bucketKeys (some b)).filter fun key => StyleKey.isSelected key == selected).map
        (ClassName.of names) := by
  induction b with
  | nil => rfl
  | cons m b ih =>
    obtain ⟨label, keys⟩ := m
    have hkeys : ∀ key ∈ keys, StyleKey.isSelected key = isSelectedLabel label :=
      fun key hk => (h label keys List.mem_cons_self key hk).isSelected_eq
    have hbucket : keys.filter (fun key => StyleKey.isSelected key == selected)
        = if isSelectedLabel label == selected then keys else [] := by
      rw [List.filter_congr fun key hk => by rw [hkeys key hk]]
      cases isSelectedLabel label == selected <;> simp
    have hrest := ih fun label keys hm => h label keys (List.mem_cons_of_mem _ hm)
    have hsplit : Entry.bucketKeys (some ((label, keys) :: b))
        = keys ++ Entry.bucketKeys (some b) := rfl
    rw [hsplit, List.filter_append, List.map_append, ← hrest, hbucket, List.filter_cons]
    by_cases hlabel : isSelectedLabel label = selected <;> simp [hlabel]

/-- A core record has the effects apart whose keys are read as selected. -/
theorem coreRecord_split {entry : Entry} (h : Keys.AreLabelled (entry.effects.getD [])) :
    (coreRecord names entry).selected
        = ((Entry.bucketKeys entry.effects).filter StyleKey.isSelected).map (ClassName.of names)
      ∧ (coreRecord names entry).effects
        = ((Entry.bucketKeys entry.effects).filter fun key => !StyleKey.isSelected key).map
          (ClassName.of names) := by
  constructor
  · simpa [coreRecord, Entry.bucketKeys] using flatMap_filter_label names h true
  · simpa [coreRecord, Entry.bucketKeys] using flatMap_filter_label names h false

/-- A palette's record has the colors apart whose keys are read as selected. -/
theorem mem_trackClasses_role {colors : List AuthoredColor} {es : List Keys.Emission}
    (hes : colors.mapM AuthoredColor.emit = .ok es) {palette : String} {roles : Dict Buckets}
    (hp : (palette, roles) ∈ es.foldl Keys.fileByLabel []) {selected : Bool} {role name : String} :
    (∃ track, name ∈ (paletteRecord names roles
        (Dict.getD (es.foldl Keys.fileByTrack []) palette [])).trackClasses selected role track)
      ↔ ∃ key ∈ Entry.bucketKeys (roles.get? role), StyleKey.isSelected key = selected
        ∧ ClassName.of names key = name := by
  simp only [mem_trackClasses hp, Keys.mem_bucketKeys_role hp]
  constructor
  · rintro ⟨track, em, hem, ⟨hpalette, hrole, -, hselected⟩, hname⟩
    have hlabel := (Keys.hasLabel_of_mem_emissions hes hem).isSelected_eq
    exact ⟨em.key, ⟨em, hem, ⟨hpalette, hrole⟩, rfl⟩, hlabel.trans hselected, hname⟩
  · rintro ⟨_, ⟨em, hem, ⟨hpalette, hrole⟩, rfl⟩, hselected, hname⟩
    have hlabel := (Keys.hasLabel_of_mem_emissions hes hem).isSelected_eq
    exact ⟨em.track.name, em, hem, ⟨hpalette, hrole, rfl, hlabel.symm.trans hselected⟩, hname⟩

end ClassMap

namespace Compiled

/-- The keys of a compiled schema are in the states that their labels name. The split map tells the
selected scope by the labels, and so tells it as the keys have it. -/
structure SplitsByState (c : Compiled) (names : Dict String) : Prop where
  effects : ∀ component element entry, (component, element, entry) ∈ c.tree.entries →
    Keys.AreLabelled (entry.effects.getD [])
  palettes : ∀ component element entry, (component, element, entry) ∈ c.tree.entries →
    ∀ palette roles, (palette, roles) ∈ entry.palettes.getD [] →
      ∀ role labels, (role, labels) ∈ roles → Keys.AreLabelled labels
  core : ∀ component element r,
    Dict.at? (ClassMap.split names c.tones c.tree).core component element = some r →
    ∃ entry, (component, element, entry) ∈ c.tree.entries
      ∧ r.selected
        = ((Entry.bucketKeys entry.effects).filter StyleKey.isSelected).map (ClassName.of names)
      ∧ r.effects
        = ((Entry.bucketKeys entry.effects).filter fun key => !StyleKey.isSelected key).map
          (ClassName.of names)
  colors : ∀ palette component element r,
    ClassMap.record? (ClassMap.split names c.tones c.tree).palettes palette component element
      = some r →
    ∃ entry roles, (component, element, entry) ∈ c.tree.entries
      ∧ (palette, roles) ∈ entry.palettes.getD []
      ∧ ∀ role name selected, (∃ track, name ∈ r.trackClasses selected role track)
        ↔ ∃ key ∈ Entry.bucketKeys (roles.get? role), StyleKey.isSelected key = selected
          ∧ ClassName.of names key = name

theorem splitsByState {s : Schema} {c : Compiled} (h : ofSchema s = .ok c) (names : Dict String) :
    c.SplitsByState names := by
  have hc := ofSchema_faithful h
  have heffects : ∀ component element entry, (component, element, entry) ∈ c.tree.entries →
      Keys.AreLabelled (entry.effects.getD []) := by
    intro component element entry hentry
    obtain ⟨e, section?, hsections⟩ := hc.exists_sectionsOf hentry
    exact hsections.areLabelled_effects
  refine ⟨heffects, ?palettes, ?core, ?colors⟩
  case palettes =>
    intro component element entry hentry palette roles hp role labels hr label keys hl key hk
    obtain ⟨e, section?, hsections⟩ := hc.exists_sectionsOf hentry
    obtain ⟨es, hes, hkeys, -⟩ := hsections.exists_colorKeys
    -- A key stands under the label of a color that gives it.
    rw [hkeys] at hp
    rw [← Keys.labelled_of_mem hp hr hl, Keys.mem_labelled] at hk
    obtain ⟨em, hem, ⟨-, -, rfl⟩, rfl⟩ := hk
    exact Keys.hasLabel_of_mem_emissions hes hem
  case core =>
    intro component element r hr
    have hmap := Dict.at?_map (ClassMap.coreRecord names) c.tree component element
    obtain ⟨entry, hentry, rfl⟩ := Option.map_eq_some_iff.1 (hmap.symm.trans hr)
    have hmem := (KeyTree.mem_entries_iff hc.tree).2 hentry
    exact ⟨entry, hmem, ClassMap.coreRecord_split (heffects component element entry hmem)⟩
  case colors =>
    intro palette component element r hr
    obtain ⟨entry, roles, hentry, hp, rfl⟩ := (record?_eq_some h).1 hr
    obtain ⟨e, section?, -, hof, htones⟩ := hc.sound component element entry hentry
    refine ⟨entry, roles, (KeyTree.mem_entries_iff hc.tree).2 hentry, hp, ?_⟩
    obtain ⟨es, hes, hkeys, hsection⟩ := (sectionsOf hof).exists_colorKeys
    obtain ⟨-, p, hsome, -, -⟩ := (sectionsOf hof).exists_emissions hp
    rw [hsome, Option.map_some, Option.getD_some] at hsection
    intro role name selected
    rw [ClassMap.recordOf, Dict.getD_getD_eq c.tones, htones p hsome, Option.getD_some, hsection]
    exact ClassMap.mem_trackClasses_role hes (hkeys ▸ hp)

/-- A box with a radius below `selected`, whose breakpoint holds the marks of keys, a shadow in the
plain selected state, and a color in both scopes. -/
def layeredBox : Schema :=
  let number (n : Number) : Document := .scalar (.number n)
  let color : Document := .list ([0, 0, 0].map number)
  let widths : Document := .map [(.text "a__b--c==d", number 4)]
  let below : Document := .map [(.text "hover", .map [(.text "s:md:1", widths)])]
  let soft : Document := .map [(.text "rest", color),
    (.text "selected", .map [(.text "rest", color)])]
  .ofElements [("box",
    { decorations := none, scales := none
      palettes := some [("brand", [(.boxColor, [("primary", .map [(.text "soft", soft)])])])]
      effects := some ⟨some ⟨some [(.selected, 1)], none, none, none⟩,
        some [("selected", below)]⟩ })]

theorem splitsByState_layeredBox : ∃ c, ofSchema layeredBox = .ok c ∧ c.SplitsByState []
    ∧ c.tree.keys = ["shadow__[0,0,0,[0,0,0,1]]", "shadow--selected__[1,0,0,[0,0,0,1]]",
      "borderRadius--selected:hover++s:md:1::a__b--c==d__4", "boxColor__[0,0,0]",
      "boxColor--selected:rest__[0,0,0]"] := by
  have hc : ((ofSchema layeredBox).toOption.map fun c => c.tree.keys)
      = some ["shadow__[0,0,0,[0,0,0,1]]", "shadow--selected__[1,0,0,[0,0,0,1]]",
        "borderRadius--selected:hover++s:md:1::a__b--c==d__4", "boxColor__[0,0,0]",
        "boxColor--selected:rest__[0,0,0]"] := by decide +kernel
  obtain ⟨c, hc, hkeys⟩ := exists_of_toOption_map hc
  exact ⟨c, hc, splitsByState hc [], hkeys⟩

end Compiled
end AtomicCss

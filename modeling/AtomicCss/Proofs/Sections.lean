import AtomicCss.Proofs.Bundles
import AtomicCss.Proofs.StyleKeys

/-!
# The keys of each section

Every key of a section is written for a member of the section, and begins with the property of that
member: a decoration, a scale, or, among the effects, the shadow or the border radius.
-/
namespace AtomicCss

theorem InteractionState.name_injective : Function.Injective InteractionState.name := by
  intro s t h
  cases s <;> cases t <;> first | rfl | exact absurd h (by decide)

namespace Value

theorem itemIntegers_eq (items : List Value) : itemIntegers items = items.flatMap integers := by
  induction items with
  | nil => rfl
  | cons v items ih => rw [itemIntegers, ih, List.flatMap_cons]

theorem memberIntegers_eq (members : List (String × Value)) :
    memberIntegers members = members.flatMap fun m => m.2.integers := by
  induction members with
  | nil => rfl
  | cons m members ih => rw [memberIntegers, ih, List.flatMap_cons]

theorem isWritable_list {items : List Value} :
    (Value.list items).IsWritable ↔ ∀ v ∈ items, v.IsWritable := by
  simp only [IsWritable, integers, itemIntegers_eq, List.forall_mem_flatMap]

theorem isWritable_map {members : List (String × Value)} :
    (Value.map members).IsWritable ↔ ∀ m ∈ members, m.2.IsWritable := by
  simp only [IsWritable, integers, memberIntegers_eq, List.forall_mem_flatMap]

theorem IsWritable.of_get? {members : Dict Value} (h : (Value.map members).IsWritable)
    {k : String} {v : Value} (hv : members.get? k = some v) : v.IsWritable :=
  isWritable_map.1 h _ (Dict.mem_of_get? hv)

end Value

namespace Keys

theorem get?_optionalMember {α : Type} (name k : String) (f : α → Value) (a? : Option α) :
    Dict.get? (optionalMember name f a?) k = if name = k then a?.map f else none := by
  cases a? with
  | none => simp [optionalMember]
  | some a => simp [optionalMember, Dict.get?_cons]

theorem file_eq (keys : List (String × String)) (b : Buckets) :
    file keys b
      = (keys.map fun (label, key) => (label, [key])).foldl (fun b (j, items) => b.append j items)
        b := by
  rw [List.foldl_map]
  rfl

theorem mem_getD_file {keys : List (String × String)} {label key : String} :
    key ∈ Dict.getD (file keys []) label [] ↔ (label, key) ∈ keys := by
  rw [file_eq, Dict.mem_getD_foldl_append]
  simp only [Dict.getD, Dict.get?_nil, Option.getD_none, List.not_mem_nil, false_or, List.mem_map,
    Prod.mk.injEq, Prod.exists]
  constructor
  · rintro ⟨_, ⟨_, _, hm, rfl, rfl⟩, hk⟩
    rwa [List.mem_singleton.1 hk]
  · intro hm
    exact ⟨[key], ⟨label, key, hm, rfl, rfl⟩, List.mem_singleton_self key⟩

theorem nodup_keys_file (keys : List (String × String)) : (Dict.keys (file keys [])).Nodup := by
  rw [file_eq]
  exact Dict.nodup_keys_foldl_append _ Dict.nodup_keys_nil

/-- Keys stand in buckets with distinct labels if they stand under some label. -/
theorem mem_bucketKeys_iff {b : Buckets} (hb : (Dict.keys b).Nodup) {key : String} :
    key ∈ Entry.bucketKeys (some b) ↔ ∃ label, key ∈ Dict.getD b label [] := by
  rw [Entry.mem_bucketKeys]
  constructor
  · rintro ⟨label, keys, hm, hk⟩
    refine ⟨label, ?_⟩
    rwa [Dict.getD, Dict.get?_of_mem hb hm]
  · rintro ⟨label, hk⟩
    rw [Dict.getD] at hk
    cases hlabel : Dict.get? b label with
    | none => simp [hlabel] at hk
    | some keys =>
      rw [hlabel] at hk
      exact ⟨label, keys, Dict.mem_of_get? hlabel, hk⟩

theorem mem_bucketKeys_file {keys : List (String × String)} {key : String} :
    key ∈ Entry.bucketKeys (some (file keys [])) ↔ ∃ label, (label, key) ∈ keys := by
  rw [mem_bucketKeys_iff (nodup_keys_file keys)]
  simp only [mem_getD_file]

theorem requireWritable_eq_ok {v : Value} {u : Unit} :
    requireWritable v = .ok u ↔ v.IsWritable := by
  rw [requireWritable]
  split <;> simp [*]

theorem encode_eq_ok {c : StyleKey.Coordinates} {key : String} :
    encode c = .ok key ↔ StyleKey.encode c = .ok key ∧ c.value.IsWritable := by
  simp only [encode, bind_eq_ok, mapError_eq_ok, requireWritable_eq_ok, pure_eq_ok]
  constructor
  · rintro ⟨_, h, _, hvalue, rfl⟩
    exact ⟨h, hvalue⟩
  · rintro ⟨h, hvalue⟩
    exact ⟨key, h, (), hvalue, rfl⟩

theorem mem_ofDecorations {decorations : Dict Value} {keys : List String}
    (h : ofDecorations decorations = .ok keys) {key : String} (hk : key ∈ keys) :
    ∃ property value, (property, value) ∈ decorations
      ∧ StyleKey.encode { property, value } = .ok key := by
  obtain ⟨⟨property, value⟩, hm, he⟩ := (mem_mapM_ok h).1 hk
  exact ⟨property, value, List.mem_of_mem_filter hm, (encode_eq_ok.1 he).1⟩

/-- The keys that a section of scales has under a label are those of its properties. -/
theorem mem_ofScales {scales : Dict Value} {b : Buckets} (h : ofScales scales = .ok b)
    {label key : String} : key ∈ Dict.getD b label [] ↔ ∃ property v keys,
      (property, v) ∈ scales ∧ responsive property {} v = .ok keys ∧ (label, key) ∈ keys := by
  simp only [ofScales, bind_eq_ok, pure_eq_ok] at h
  obtain ⟨keys, hkeys, rfl⟩ := h
  rw [mem_getD_file, List.mem_flatten]
  simp only [mem_mapM_ok hkeys, Prod.exists]
  constructor
  · rintro ⟨keys, ⟨property, v, hm, hr⟩, hk⟩
    exact ⟨property, v, keys, hm, hr, hk⟩
  · rintro ⟨property, v, keys, hm, hr, hk⟩
    exact ⟨keys, ⟨property, v, hm, hr⟩, hk⟩

theorem mem_bucketKeys_ofScales {scales : Dict Value} {b : Buckets} (h : ofScales scales = .ok b)
    {key : String} : key ∈ Entry.bucketKeys (some b) ↔ ∃ property v keys label,
      (property, v) ∈ scales ∧ responsive property {} v = .ok keys ∧ (label, key) ∈ keys := by
  have hb : (Dict.keys b).Nodup := by
    simp only [ofScales, bind_eq_ok, pure_eq_ok] at h
    obtain ⟨keys, -, rfl⟩ := h
    exact nodup_keys_file _
  rw [mem_bucketKeys_iff hb]
  simp only [mem_ofScales h]
  constructor
  · rintro ⟨label, property, v, keys, hm, hr, hk⟩
    exact ⟨property, v, keys, label, hm, hr, hk⟩
  · rintro ⟨property, v, keys, label, hm, hr, hk⟩
    exact ⟨label, property, v, keys, hm, hr, hk⟩

def IsKeyOf (property : String) (scope : Scope) (key : String) : Prop :=
  ∃ value size breakpoint, StyleKey.encode
    { property, value, size, breakpoint, state := scope.state, controlState := scope.controlState }
      = .ok key

/-- A key of one value of a scale, by what is written into it. -/
theorem sizedKey_eq_ok {property : String} {scope : Scope} {bucket : String} {value : Value}
    {size breakpoint : Option String} {k : SizedKey} :
    sizedKey property scope bucket value size breakpoint = .ok k ↔ k.1 = bucket
      ∧ StyleKey.encode { property, value, size, breakpoint, state := scope.state
                          controlState := scope.controlState } = .ok k.2
      ∧ value.IsWritable := by
  obtain ⟨label, key⟩ := k
  simp only [sizedKey, bind_eq_ok, encode_eq_ok, pure_eq_ok, Prod.mk.injEq]
  constructor
  · rintro ⟨_, h, rfl, rfl⟩
    exact ⟨rfl, h⟩
  · rintro ⟨rfl, h⟩
    exact ⟨key, h, rfl, rfl⟩

theorem isKeyOf_sizedKey {property : String} {scope : Scope} {bucket : String} {value : Value}
    {size breakpoint : Option String} {k : SizedKey}
    (h : sizedKey property scope bucket value size breakpoint = .ok k) :
    IsKeyOf property scope k.2 := ⟨_, _, _, (sizedKey_eq_ok.1 h).2.1⟩

theorem isKeyOf_keysAtSize {property : String} {scope : Scope} {size : String} {v : Value}
    {keys : List SizedKey} (h : keysAtSize property scope size v = .ok keys) {k : SizedKey}
    (hk : k ∈ keys) : IsKeyOf property scope k.2 := by
  cases v with
  | number n =>
    simp only [keysAtSize, bind_eq_ok, pure_eq_ok] at h
    obtain ⟨k', hk', rfl⟩ := h
    rw [List.mem_singleton.1 hk]
    exact isKeyOf_sizedKey hk'
  | map widths =>
    obtain ⟨⟨breakpoint, v⟩, -, hw⟩ := (mem_mapM_ok h).1 hk
    dsimp only at hw
    split at hw
    · exact isKeyOf_sizedKey hw
    · exact isKeyOf_sizedKey hw
  | null | bool | text | list =>
    cases h
    cases hk

theorem isKeyOf_responsive {property : String} {scope : Scope} {v : Value}
    {keys : List SizedKey} (h : responsive property scope v = .ok keys) {k : SizedKey}
    (hk : k ∈ keys) : IsKeyOf property scope k.2 := by
  cases v with
  | number n =>
    simp only [responsive, bind_eq_ok, pure_eq_ok] at h
    obtain ⟨k', hk', rfl⟩ := h
    rw [List.mem_singleton.1 hk]
    exact isKeyOf_sizedKey hk'
  | map sizes =>
    simp only [responsive, bind_eq_ok, pure_eq_ok] at h
    obtain ⟨parts, hparts, rfl⟩ := h
    obtain ⟨part, hpart, hk⟩ := List.mem_flatten.1 hk
    obtain ⟨_, -, hv⟩ := (mem_mapM_ok hparts).1 hpart
    exact isKeyOf_keysAtSize hv hk
  | null | bool | text | list =>
    cases h
    cases hk

theorem shadowKey_eq_ok {shadow : Dict Value} {state : String} {k : String × String} :
    shadowKey shadow state = .ok k ↔ k.1 = state
      ∧ StyleKey.encode { property := "shadow", state := some state
                          value := .text (StyleKey.jsonText (.list (shadowValues shadow state))) }
        = .ok k.2
      ∧ (Value.list (shadowValues shadow state)).IsWritable := by
  obtain ⟨label, key⟩ := k
  simp only [shadowKey, bind_eq_ok, mapError_eq_ok, requireWritable_eq_ok, pure_eq_ok,
    Prod.mk.injEq]
  constructor
  · rintro ⟨_, hvalues, _, h, rfl, rfl⟩
    exact ⟨rfl, h, hvalues⟩
  · rintro ⟨rfl, h, hvalues⟩
    exact ⟨(), hvalues, key, h, rfl, rfl⟩

theorem startsWith_of_ofShadow {shadow : Dict Value} {b : Buckets} (h : ofShadow shadow = .ok b)
    {key : String} (hk : key ∈ Entry.bucketKeys (some b)) : key.startsWith "shadow" = true := by
  rw [ofShadow] at h
  split at h
  · cases h
  · simp only [bind_eq_ok, pure_eq_ok] at h
    obtain ⟨keys, hkeys, rfl⟩ := h
    obtain ⟨label, hk⟩ := mem_bucketKeys_file.1 hk
    obtain ⟨state, -, hs⟩ := (mem_mapM_ok hkeys).1 hk
    exact StyleKey.startsWith_of_encode (shadowKey_eq_ok.1 hs).2.1

theorem startsWith_of_radiusInState {label : String} {scope : Scope} {value : Option Value}
    {keys : List (String × String)} (h : radiusInState label scope value = .ok keys)
    {k : String × String} (hk : k ∈ keys) :
    k.2.startsWith ScaleProperty.borderRadius.name = true := by
  cases value with
  | none =>
    cases h
    cases hk
  | some v =>
    simp only [radiusInState, bind_eq_ok, pure_eq_ok] at h
    obtain ⟨sized, hsized, rfl⟩ := h
    obtain ⟨k', hk', rfl⟩ := List.mem_map.1 hk
    obtain ⟨_, _, _, he⟩ := isKeyOf_responsive hsized hk'
    exact StyleKey.startsWith_of_encode he

theorem startsWith_of_ofBorderRadius {radius : Dict Value} {b : Buckets}
    (h : ofBorderRadius radius = .ok b) {key : String}
    (hk : key ∈ Entry.bucketKeys (some b)) :
    key.startsWith ScaleProperty.borderRadius.name = true := by
  simp only [ofBorderRadius, bind_eq_ok, pure_eq_ok] at h
  obtain ⟨plain, hplain, below, hbelow, rfl⟩ := h
  obtain ⟨label, hk⟩ := mem_bucketKeys_file.1 hk
  obtain ⟨keys, hkeys, hk⟩ := List.mem_flatten.1 hk
  rcases List.mem_append.1 hkeys with hkeys | hkeys
  · obtain ⟨s, -, hs⟩ := (mem_mapM_ok hplain).1 hkeys
    exact startsWith_of_radiusInState hs hk
  · obtain ⟨s, -, hs⟩ := (mem_mapM_ok hbelow).1 hkeys
    exact startsWith_of_radiusInState hs hk

theorem mem_ofPart {effects : Dict Value} {name : String}
    {keys : Dict Value → Except CompileError Buckets} {b : Buckets}
    (h : ofPart effects name keys = .ok b) : b = [] ∨ ∃ m, keys m = .ok b := by
  rw [ofPart] at h
  split at h
  · exact .inr ⟨_, h⟩
  · exact .inl (pure_eq_ok.1 h).symm

/-- Every key of the effects is one of the shadow or of the border radius. -/
theorem startsWith_of_ofEffects {effects : Dict Value} {b : Buckets}
    (h : ofEffects effects = .ok b) {key : String} (hk : key ∈ Entry.bucketKeys (some b)) :
    key.startsWith "shadow" = true ∨ key.startsWith ScaleProperty.borderRadius.name = true := by
  simp only [ofEffects, bind_eq_ok, pure_eq_ok] at h
  obtain ⟨shadow, hshadow, radius, hradius, rfl⟩ := h
  have hnodup := Dict.nodup_keys_foldl_append (shadow ++ radius)
    Dict.nodup_keys_nil
  obtain ⟨label, hk⟩ := (mem_bucketKeys_iff hnodup).1 hk
  rw [Dict.mem_getD_foldl_append] at hk
  simp only [Dict.getD, Dict.get?_nil, Option.getD_none, List.not_mem_nil, false_or] at hk
  obtain ⟨keys, hm, hk⟩ := hk
  have hbucket : ∀ c : Buckets, (label, keys) ∈ c → key ∈ Entry.bucketKeys (some c) :=
    fun c hm => Entry.mem_bucketKeys.2 ⟨label, keys, hm, hk⟩
  rcases List.mem_append.1 hm with hm | hm
  · obtain rfl | ⟨m, h⟩ := mem_ofPart hshadow
    · cases hm
    · exact .inl (startsWith_of_ofShadow h (hbucket _ hm))
  · obtain rfl | ⟨m, h⟩ := mem_ofPart hradius
    · cases hm
    · exact .inr (startsWith_of_ofBorderRadius h (hbucket _ hm))

end Keys

namespace Compiled

theorem filled_eq_some {α : Type} {d? : Option (Dict α)} {d : Dict α} (h : filled d? = some d) :
    d? = some d := (Option.filter_eq_some_iff.1 h).1

variable {e : Element} {entry : Entry} {section? : Option Keys.PaletteSection}

/-- The sections of an entry, each made from the section of the element. -/
structure SectionsOf (e : Element) (entry : Entry) (section? : Option Keys.PaletteSection) :
    Prop where
  decorations : (filled (e.decorations.map Decorations.members)).mapM Keys.ofDecorations
    = .ok entry.decorations
  scales : (filled (e.scales.map Scales.members)).mapM Keys.ofScales = .ok entry.scales
  palettes : (filled (e.palettes.map Palettes.members)).mapM Keys.ofPalettes = .ok section?
    ∧ entry.palettes = section?.map (·.keys)
  effects : ∃ effects buckets, e.effects.mapM Effects.members = .ok effects
    ∧ (filled effects).mapM Keys.ofEffects = .ok buckets
    ∧ entry.effects = buckets.filter fun b => !b.isEmpty

theorem sectionsOf (h : entryOf e = .ok (entry, section?)) : SectionsOf e entry section? := by
  simp only [entryOf, entryBeforeEffects, effectKeys, bind_assoc, pure_bind, bind_eq_ok,
    mapError_eq_ok, pure_eq_ok, Prod.mk.injEq] at h
  obtain ⟨decorations, hd, scales, hs, palettes, hp, effects, hm, buckets, he, rfl, rfl⟩ := h
  exact ⟨hd, hs, ⟨hp, rfl⟩, effects, buckets, hm, he, rfl⟩

/-- Every entry of a compiled tree has been made from the sections of some element. -/
theorem Faithful.exists_sectionsOf {places : List (String × String × Element)} {c : Compiled}
    (hc : c.Faithful places) {component element : String}
    (he : (component, element, entry) ∈ c.tree.entries) :
    ∃ e section?, SectionsOf e entry section? := by
  obtain ⟨e, section?, -, hentry, -⟩ :=
    hc.sound component element entry ((KeyTree.mem_entries_iff hc.tree).1 he)
  exact ⟨e, section?, sectionsOf hentry⟩

end Compiled

namespace Entry

variable {e : Element} {entry : Entry} {section? : Option Keys.PaletteSection} {key : String}

theorem startsWith_of_decoration (h : Compiled.SectionsOf e entry section?)
    (hk : key ∈ entry.decorations.getD []) :
    ∃ p : DecorationProperty, key.startsWith p.name = true := by
  obtain ⟨-, h⟩ | ⟨members, keys, hm, hkeys, h⟩ := mapM_option_eq_ok.1 h.decorations
  · simp [h] at hk
  · rw [hkeys] at hk
    obtain ⟨property, value, hmem, he⟩ := Keys.mem_ofDecorations h hk
    obtain ⟨d, -, rfl⟩ := Option.map_eq_some_iff.1 (Compiled.filled_eq_some hm)
    have hproperty : ∃ p : DecorationProperty, property = p.name := by
      simp only [Decorations.members, List.mem_append] at hmem
      rcases hmem with ((((hmem | hmem) | hmem) | hmem) | hmem) | hmem
      all_goals
        simp only [optionalMember] at hmem
        split at hmem
        · exact ⟨_, (Prod.mk.inj (List.mem_singleton.1 hmem)).1⟩
        · cases hmem
    obtain ⟨p, rfl⟩ := hproperty
    exact ⟨p, StyleKey.startsWith_of_encode he⟩

theorem scales_cases (h : Compiled.SectionsOf e entry section?) :
    (entry.scales = none ∧ ∀ scales, e.scales = some scales → scales = []) ∨ ∃ scales b,
      e.scales = some scales ∧ entry.scales = some b
        ∧ Keys.ofScales (Scales.members scales) = .ok b := by
  obtain ⟨hm, hnone⟩ | ⟨members, b, hm, hb, hof⟩ := mapM_option_eq_ok.1 h.scales
  · refine .inl ⟨hnone, fun scales hscales => ?_⟩
    have hempty : Scales.members scales = [] := by
      simpa [Compiled.filled, hscales] using hm
    exact List.map_eq_nil_iff.1 hempty
  · obtain ⟨scales, hscales, rfl⟩ := Option.map_eq_some_iff.1 (Compiled.filled_eq_some hm)
    exact .inr ⟨scales, b, hscales, hb, hof⟩

/-- The keys of a scale are those of its responsive values at rest. -/
theorem mem_scaleKeys (h : Compiled.SectionsOf e entry section?) :
    key ∈ bucketKeys entry.scales ↔ ∃ scales p scale keys label, e.scales = some scales
      ∧ (p, scale) ∈ scales ∧ Keys.responsive p.name {} scale.toValue = .ok keys
      ∧ (label, key) ∈ keys := by
  obtain ⟨hnone, hempty⟩ | ⟨scales, b, hscales, hb, hof⟩ := scales_cases h
  · rw [hnone]
    constructor
    · intro hk
      simp [bucketKeys] at hk
    · rintro ⟨scales, p, scale, keys, label, hscales, hp, -, -⟩
      simp [hempty scales hscales] at hp
  · rw [hb, Keys.mem_bucketKeys_ofScales hof]
    constructor
    · rintro ⟨property, v, keys, label, hmem, hr, hk⟩
      obtain ⟨⟨p, scale⟩, hp, heq⟩ := List.mem_map.1 hmem
      obtain ⟨rfl, rfl⟩ := Prod.mk.inj heq
      exact ⟨scales, p, scale, keys, label, hscales, hp, hr, hk⟩
    · rintro ⟨scales', p, scale, keys, label, hscales', hp, hr, hk⟩
      rw [hscales] at hscales'
      cases hscales'
      exact ⟨p.name, scale.toValue, keys, label, List.mem_map.2 ⟨_, hp, rfl⟩, hr, hk⟩

/-- The scales of an entry have been compiled one by one. -/
theorem exists_responsive (h : Compiled.SectionsOf e entry section?) {scales : Scales}
    (hscales : e.scales = some scales) {p : ScaleProperty} {scale : Scale}
    (hp : (p, scale) ∈ scales) : ∃ keys, Keys.responsive p.name {} scale.toValue = .ok keys := by
  obtain ⟨-, hempty⟩ | ⟨scales', b, hscales', -, hof⟩ := scales_cases h
  · simp [hempty scales hscales] at hp
  · rw [hscales] at hscales'
    cases hscales'
    simp only [Keys.ofScales, bind_eq_ok] at hof
    obtain ⟨parts, hparts, -⟩ := hof
    obtain ⟨keys, -, hkeys⟩ := exists_of_mapM_ok hparts
      (List.mem_map.2 ⟨(p, scale), hp, rfl⟩ : (p.name, scale.toValue) ∈ Scales.members scales)
    exact ⟨keys, hkeys⟩

theorem startsWith_of_effect (h : Compiled.SectionsOf e entry section?)
    (hk : key ∈ bucketKeys entry.effects) :
    key.startsWith "shadow" = true ∨ key.startsWith ScaleProperty.borderRadius.name = true := by
  obtain ⟨effects, buckets, -, h, heffects⟩ := h.effects
  obtain ⟨-, rfl⟩ | ⟨members, b, -, rfl, hb⟩ := mapM_option_eq_ok.1 h
  · simp [heffects, bucketKeys] at hk
  · rw [heffects, Option.filter_some] at hk
    split at hk
    · exact Keys.startsWith_of_ofEffects hb hk
    · simp [bucketKeys] at hk

end Entry
end AtomicCss

import AtomicCss.Proofs.Agreement
import AtomicCss.Proofs.Tracks

/-!
# Classes by track

The split map has the classes of an element's colors by palette, role and track, those of the
selected scope apart. The text of a track has the names of just the keys that colors of the track
give, and has each once. A key that colors of both tracks give stands under both.
-/
namespace AtomicCss

/-- A color of a track gives a key, in the selected scope or out of it. -/
def Element.Emits (e : Element) (palette role track : String) (selected : Bool) (key : String) :
    Prop :=
  ∃ color ∈ (e.palettes.getD []).colors, (color.palette = palette ∧ color.role = role
    ∧ color.track.name = track ∧ isSelectedLabel color.label = selected)
    ∧ ∃ emission, color.emit = .ok emission ∧ emission.key = key

theorem Element.emits_iff {e : Element} {es : List Keys.Emission}
    (h : (e.palettes.getD []).colors.mapM AuthoredColor.emit = .ok es)
    {palette role track key : String} {selected : Bool} :
    e.Emits palette role track selected key ↔ ∃ emission ∈ es, (emission.palette = palette
      ∧ emission.role = role ∧ emission.track.name = track
      ∧ isSelectedLabel emission.label = selected) ∧ emission.key = key := by
  constructor
  · rintro ⟨color, hcolor, hplace, emission, hemit, hkey⟩
    have hem := (mem_mapM_ok h).2 ⟨color, hcolor, hemit⟩
    obtain ⟨-, -, -, hp, hr, hl, ht⟩ := AuthoredColor.emit_eq_ok.1 hemit
    exact ⟨emission, hem, by rw [hp, hr, hl, ht]; exact hplace, hkey⟩
  · rintro ⟨emission, hem, hplace, hkey⟩
    obtain ⟨color, hcolor, hemit⟩ := (mem_mapM_ok h).1 hem
    obtain ⟨-, -, -, hp, hr, hl, ht⟩ := AuthoredColor.emit_eq_ok.1 hemit
    rw [hp, hr, hl, ht] at hplace
    exact ⟨color, hcolor, hplace, emission, hemit, hkey⟩

namespace ClassMap

/-- The text that an element has for a track of a role in a palette, empty if there is none. -/
def Split.trackText (m : Split) (component element palette : String) (selected : Bool)
    (role track : String) : String :=
  (((m.paletteValues.get? palette).bind fun v =>
    v.at? [component, element, if selected then "c" else "p", role, track]).bind
      Value.text?).getD ""

def PaletteRecord.trackClasses (r : PaletteRecord) (selected : Bool) (role track : String) :
    List String :=
  Dict.getD (Dict.getD (r.classes selected) role []) track []

theorem at?_tonesValue (classes : ToneClasses) (role track : String) :
    (tonesValue classes).at? [role, track]
      = (Dict.at? classes role track).map fun names => .text (join names) :=
  at?_nested (fun names => .text (join names)) classes role track

theorem get?_toValue (r : PaletteRecord) (selected : Bool) :
    Dict.get? (tonesMember "p" r.plain ++ tonesMember "c" r.selected)
        (if selected then "c" else "p")
      = if (r.classes selected).isEmpty = false then some (tonesValue (r.classes selected))
        else none := by
  cases selected <;> simp [Dict.get?_list_append, get?_tonesMember, PaletteRecord.classes]

theorem text_toValue (r : PaletteRecord) (selected : Bool) (role track : String) :
    ((r.toValue.at? [if selected then "c" else "p", role, track]).bind Value.text?).getD ""
      = join (r.trackClasses selected role track) := by
  rw [PaletteRecord.toValue, Value.at?, get?_toValue, PaletteRecord.trackClasses,
    Dict.getD_getD_eq]
  cases hclasses : r.classes selected with
  | nil => rfl
  | cons m classes =>
    rw [← hclasses, if_pos (by simp [hclasses]), Option.bind_some, at?_tonesValue]
    cases Dict.at? (r.classes selected) role track <;> rfl

theorem trackText_eq (m : Split) (component element palette : String) (selected : Bool)
    (role track : String) : m.trackText component element palette selected role track
      = join (((record? m.palettes palette component element).map fun r =>
          r.trackClasses selected role track).getD []) := by
  have hpath : ∀ v : Value,
      v.at? [component, element, if selected then "c" else "p", role, track]
        = (v.at? [component, element]).bind fun record =>
          record.at? [if selected then "c" else "p", role, track] := fun v =>
    v.at?_append [component, element] _
  simp only [Split.trackText, Split.paletteValues, record?, hpath]
  rw [Dict.get?_map fun _ => nested PaletteRecord.toValue]
  cases Dict.get? m.palettes palette with
  | none => rfl
  | some d =>
    rw [Option.map_some, Option.bind_some, Option.bind_some, at?_nested]
    cases Dict.at? d component element with
    | none => rfl
    | some r => exact text_toValue r selected role track

/-- The names that a record has for a track are those of the keys filed for the track. -/
theorem mem_trackClasses {es : List Keys.Emission} {palette : String} {roles : Dict Buckets}
    (hp : (palette, roles) ∈ es.foldl Keys.fileByLabel []) {names : Dict String} {selected : Bool}
    {role track name : String} :
    name ∈ (paletteRecord names roles
        (Dict.getD (es.foldl Keys.fileByTrack []) palette [])).trackClasses selected role track
      ↔ ∃ emission ∈ es, (emission.palette = palette ∧ emission.role = role
        ∧ emission.track.name = track ∧ isSelectedLabel emission.label = selected)
        ∧ ClassName.of names emission.key = name := by
  rw [PaletteRecord.trackClasses, classes_paletteRecord, mem_getD_fileCells]
  simp only [List.mem_filter, beq_iff_eq, mem_cells]
  constructor
  · rintro ⟨label, tracked, ⟨⟨labels, keys, hr, hl, ht⟩, hselected⟩, key, hk, rfl⟩
    have hk := (Keys.mem_tracksOf_track hp hr hl).1 ⟨tracked, ht, hk⟩
    obtain ⟨emission, hem, ⟨hep, her, hel, het⟩, rfl⟩ := Keys.mem_tracked.1 hk
    exact ⟨emission, hem, ⟨hep, her, het, by rw [hel, hselected]⟩, rfl⟩
  · rintro ⟨emission, hem, ⟨rfl, rfl, rfl, rfl⟩, rfl⟩
    have hkeyed := Keys.keyed_byLabel es
    have hlabelled := Keys.mem_labelled.2 ⟨emission, hem, ⟨rfl, rfl, rfl⟩, rfl⟩
    rw [Keys.labelled, Dict.getD_of_mem hkeyed.nodup hp,
      Dict.mem_getD_getD (hkeyed.all _ _ hp)] at hlabelled
    obtain ⟨labels, keys, hr, hl, -⟩ := hlabelled
    obtain ⟨tracked, ht, hk⟩ := (Keys.mem_tracksOf_track hp hr hl).2
      (Keys.mem_tracked.2 ⟨emission, hem, ⟨rfl, rfl, rfl, rfl⟩, rfl⟩)
    exact ⟨emission.label, tracked, ⟨⟨labels, keys, hr, hl, ht⟩, rfl⟩, emission.key, hk, rfl⟩

end ClassMap

namespace Compiled

open ClassMap (IsListed classWords)

variable {s : Schema} {c : Compiled} {names : Dict String} {e : Element}
  {component element palette role track : String} {selected : Bool}

def trackText (c : Compiled) (names : Dict String) (component element palette : String)
    (selected : Bool) (role track : String) : String :=
  (ClassMap.split names c.tones c.tree).trackText component element palette selected role track

/-- Palette keys are filed by track as they are by label, and the split map lists them so. -/
structure FilesTracks (s : Schema) (c : Compiled) (names : Dict String) : Prop where
  /-- The tracks of a label hold the keys of the label, each as often. -/
  tracks : ∀ component element palette role label,
    (c.tracks component element palette role label).Perm
      (c.bucket component element palette role label)
  count : c.paletteKeyCount
    = (c.tree.entries.map fun (_, _, entry) => entry.paletteKeys.length).sum
  /-- The text of a track lists each of the keys that the track gives once, and no others. -/
  classes : ∀ component element e, (component, element, e) ∈ s.places →
    ∀ palette role track selected, ∃ classes : List String, classes.Nodup
      ∧ c.trackText names component element palette selected role track = " ".intercalate classes
      ∧ (∀ key ∈ c.tree.keys, ClassName.of names key ∈ classes
        ↔ e.Emits palette role track selected key)
      ∧ (∀ name ∈ classes, ∃ key ∈ c.tree.keys, ClassName.of names key = name)
      ∧ ((∀ key ∈ c.tree.keys, IsListed (ClassName.of names key)) →
        classWords (c.trackText names component element palette selected role track) = classes)
  /-- Every key of a label is given by some track. -/
  kept : ∀ component element e, (component, element, e) ∈ s.places →
    ∀ palette role label, ∀ key ∈ c.bucket component element palette role label,
      ∃ track : Track, e.Emits palette role track.name (isSelectedLabel label) key
  /-- There are no texts at places without an element. -/
  elsewhere : ∀ component element, (∀ e, (component, element, e) ∉ s.places) →
    ∀ palette role track selected,
      c.trackText names component element palette selected role track = ""

theorem record?_eq_some (h : ofSchema s = .ok c) {r : ClassMap.PaletteRecord} :
    ClassMap.record? (ClassMap.split names c.tones c.tree).palettes palette component element
        = some r ↔ ∃ entry roles, Dict.at? c.tree component element = some entry
      ∧ (palette, roles) ∈ entry.palettes.getD []
      ∧ r = ClassMap.recordOf names c.tones component element palette roles := by
  have hfaithful := ofSchema_faithful h
  rw [ClassMap.record?_split hfaithful.tree]
  · simp only [KeyTree.mem_entries_iff hfaithful.tree]
  · intro component element entry hentry
    obtain ⟨e, section?, -, hof, -⟩ :=
      hfaithful.sound _ _ _ ((KeyTree.mem_entries_iff hfaithful.tree).1 hentry)
    exact (sectionsOf hof).nodup_palettes

/-- The names that a text lists are those of the keys that the track gives. -/
theorem exists_classes (h : ofSchema s = .ok c) (hs : s.DistinctPlaces)
    (he : (component, element, e) ∈ s.places) : ∃ classes : List String,
      c.trackText names component element palette selected role track = ClassMap.join classes
        ∧ ∀ name, name ∈ classes ↔ ∃ key, e.Emits palette role track selected key
          ∧ ClassName.of names key = name := by
  obtain ⟨entry, es, hentry, hes, hkeys, htones⟩ := exists_filed h hs he
  refine ⟨_, ClassMap.trackText_eq _ _ _ _ _ _ _, fun name => ?_⟩
  have hemits : (∃ key, e.Emits palette role track selected key ∧ ClassName.of names key = name)
      ↔ ∃ emission ∈ es, (emission.palette = palette ∧ emission.role = role
        ∧ emission.track.name = track ∧ isSelectedLabel emission.label = selected)
        ∧ ClassName.of names emission.key = name := by
    simp only [Element.emits_iff hes]
    constructor
    · rintro ⟨_, ⟨emission, hem, hplace, rfl⟩, hname⟩
      exact ⟨emission, hem, hplace, hname⟩
    · rintro ⟨emission, hem, hplace, hname⟩
      exact ⟨_, ⟨emission, hem, hplace, rfl⟩, hname⟩
  rw [hemits]
  cases hr : ClassMap.record? (ClassMap.split names c.tones c.tree).palettes palette component
      element with
  | some r =>
    obtain ⟨_, roles, hentry', hp, rfl⟩ := (record?_eq_some h).1 hr
    obtain rfl := Option.some.inj (hentry.symm.trans hentry')
    rw [hkeys] at hp
    rw [Option.map_some, Option.getD_some, ClassMap.recordOf, Dict.getD_getD_eq c.tones, htones]
    exact ClassMap.mem_trackClasses hp
  | none =>
    -- without a record the element has no keys of the palette
    refine ⟨fun hname => absurd hname List.not_mem_nil, ?_⟩
    rintro ⟨emission, hem, ⟨rfl, -⟩, -⟩
    have hmem := Keys.mem_keys_foldl_fileByLabel.2 ⟨emission, hem, rfl⟩
    obtain ⟨roles, hroles⟩ := Option.isSome_iff_exists.1 (Dict.mem_keys_iff.1 hmem)
    have hp : (emission.palette, roles) ∈ entry.palettes.getD [] := by
      rw [hkeys]
      exact Dict.mem_of_get? hroles
    have hsome : ClassMap.record? (ClassMap.split names c.tones c.tree).palettes emission.palette
        component element = some _ := (record?_eq_some h).2 ⟨entry, roles, hentry, hp, rfl⟩
    rw [hr] at hsome
    cases hsome

/-- A key that a track gives is a key of the tree. -/
theorem mem_keys_of_emits (h : ofSchema s = .ok c) (hs : s.DistinctPlaces)
    (he : (component, element, e) ∈ s.places) {key : String}
    (hemits : e.Emits palette role track selected key) : key ∈ c.tree.keys := by
  obtain ⟨entry, es, hentry, hes, hkeys, -⟩ := exists_filed h hs he
  obtain ⟨emission, hem, ⟨rfl, -⟩, rfl⟩ := (Element.emits_iff hes).1 hemits
  have hentries := (KeyTree.mem_entries_iff (ofSchema_faithful h).tree).2 hentry
  have hcolor : entry.HasColor emission.palette emission.key :=
    (Entry.hasColor_iff hkeys).2 ⟨emission, hem, rfl, rfl⟩
  exact KeyTree.mem_keys_of_mem hentries hcolor.mem_keys

/-- In every compiled schema keys are filed by track, and listed so under names that tell them
apart. -/
theorem filesTracks (h : ofSchema s = .ok c) (hs : s.DistinctPlaces)
    (hnames : ∀ j ∈ c.tree.keys, ∀ k ∈ c.tree.keys,
      ClassName.of names j = ClassName.of names k → j = k) : FilesTracks s c names := by
  refine ⟨tracks_perm_bucket h hs, paletteKeyCount_eq h hs, ?classes, ?kept, ?elsewhere⟩
  case classes =>
    intro component element e he palette role track selected
    obtain ⟨classes, htext, hclasses⟩ : ∃ classes : List String,
        c.trackText names component element palette selected role track
          = " ".intercalate classes.eraseDups
        ∧ ∀ name, name ∈ classes ↔ ∃ key, e.Emits palette role track selected key
          ∧ ClassName.of names key = name := exists_classes h hs he
    have hkeys : ∀ name ∈ classes.eraseDups,
        ∃ key ∈ c.tree.keys, ClassName.of names key = name := by
      intro name hname
      obtain ⟨key, hemits, rfl⟩ := (hclasses name).1 (List.mem_eraseDups.1 hname)
      exact ⟨key, mem_keys_of_emits h hs he hemits, rfl⟩
    refine ⟨classes.eraseDups, nodup_eraseDups classes, htext, fun key hkey => ?_, hkeys,
      fun hlisted => ?_⟩
    · -- The name may come from another key of the track only if the keys are one.
      rw [List.mem_eraseDups, hclasses]
      constructor
      · rintro ⟨key', hemits, hname⟩
        obtain rfl := hnames _ (mem_keys_of_emits h hs he hemits) _ hkey hname
        exact hemits
      · exact fun hemits => ⟨key, hemits, rfl⟩
    · rw [htext, ClassMap.classWords_intercalate]
      intro name hname
      obtain ⟨key, hkey, rfl⟩ := hkeys name hname
      exact hlisted key hkey
  case kept =>
    intro component element e he palette role label key hkey
    obtain ⟨entry, es, hentry, hes, hkeys, -⟩ := exists_filed h hs he
    rw [bucket, hentry, Option.bind_some, hkeys] at hkey
    obtain ⟨emission, hem, ⟨hp, hr, hl⟩, hkey⟩ := Keys.mem_labelled.1 hkey
    exact ⟨emission.track, (Element.emits_iff hes).2
      ⟨emission, hem, ⟨hp, hr, rfl, by rw [hl]⟩, hkey⟩⟩
  case elsewhere =>
    intro component element hplace palette role track selected
    have hnone : ClassMap.record? (ClassMap.split names c.tones c.tree).palettes palette component
        element = none := by
      rw [Option.eq_none_iff_forall_ne_some]
      intro r hr
      obtain ⟨entry, -, hentry, -⟩ := (record?_eq_some h).1 hr
      obtain ⟨e, -, he, -⟩ := (ofSchema_faithful h).sound _ _ _ hentry
      exact hplace e he
    rw [trackText, ClassMap.trackText_eq, hnone]
    rfl

/-- A box whose tracks have one color in common, and a color below `selected`. -/
def sharedBox : Schema :=
  let color (n : Number) : Document := .list ([0, 0, n].map fun n => .scalar (.number n))
  let soft : Document := .map [(.text "rest", color 0), (.text "hover", color 9),
    (.text "selected", .map [(.text "rest", color 0)])]
  let solid : Document := .map [(.text "rest", color 0)]
  let tracks : Document := .map [(.text "soft", soft), (.text "solid", solid)]
  .ofElements [("box", ⟨none, none, some [("core", [(.boxColor, [("primary", tracks)])])], none⟩)]

/-- The keys of the box, the first of which two colors give. -/
def sharedBoxKeys : List String :=
  ["boxColor__[0,0,0]", "boxColor__[0,0,0]", "boxColor--hover__[0,0,9]",
    "boxColor--selected:rest__[0,0,0]"]

def sharedBoxNames : Dict String := sharedBoxKeys.tail.zip ["a", "b", "c"]

theorem filesTracks_sharedBox : ∃ c, ofSchema sharedBox = .ok c ∧ sharedBox.DistinctPlaces
    ∧ (∀ j ∈ c.tree.keys, ∀ k ∈ c.tree.keys,
      ClassName.of sharedBoxNames j = ClassName.of sharedBoxNames k → j = k)
    ∧ FilesTracks sharedBox c sharedBoxNames
    ∧ c.trackText sharedBoxNames "card" "box" "core" false "primary" "soft" = "a b"
    ∧ c.trackText sharedBoxNames "card" "box" "core" false "primary" "solid" = "a"
    ∧ c.trackText sharedBoxNames "card" "box" "core" true "primary" "soft" = "c" := by
  have hplaces : sharedBox.DistinctPlaces := by decide +kernel
  have hc : ((ofSchema sharedBox).toOption.map fun c => (c.tree.keys,
      c.trackText sharedBoxNames "card" "box" "core" false "primary" "soft",
      c.trackText sharedBoxNames "card" "box" "core" false "primary" "solid",
      c.trackText sharedBoxNames "card" "box" "core" true "primary" "soft"))
      = some (sharedBoxKeys, "a b", "a", "c") := by decide +kernel
  obtain ⟨c, hc, hvalues⟩ := exists_of_toOption_map hc
  simp only [Prod.mk.injEq] at hvalues
  obtain ⟨hkeys, htexts⟩ := hvalues
  have hnames : ∀ j ∈ c.tree.keys, ∀ k ∈ c.tree.keys,
      ClassName.of sharedBoxNames j = ClassName.of sharedBoxNames k → j = k := by
    rw [hkeys]
    decide +kernel
  exact ⟨c, hc, hplaces, hnames, filesTracks hc hplaces hnames, htexts⟩

end Compiled
end AtomicCss

import AtomicCss.Proofs.Bundles
import AtomicCss.Proofs.ClassMap
import AtomicCss.Proofs.Naming
import AtomicCss.Proofs.Palettes
import AtomicCss.Proofs.Sheets

/-!
# The classes a record lists

Class maps are read by path, and a field of a record lists the words of all texts in it. The fields
of a core record list the names of the keys of its element, section by section, and those of a
palette's record the names of the keys of the palette.
-/
namespace AtomicCss

namespace Value

def at? (v : Value) : List String → Option Value
  | [] => some v
  | k :: path =>
    match v with
    | .map members => (Dict.get? members k).bind fun v => at? v path
    | _ => none

theorem at?_append (v : Value) (path path' : List String) :
    v.at? (path ++ path') = (v.at? path).bind fun w => w.at? path' := by
  induction path generalizing v with
  | nil => rfl
  | cons k path ih =>
    cases v with
    | map members =>
      simp only [List.cons_append, at?, Option.bind_assoc, ih]
    | null | bool _ | number _ | text _ | list _ => rfl

theorem at?_members {α : Type} (f : α → Value) (d : Dict α) (k : String) (path : List String) :
    (Value.map (d.map fun m => (m.1, f m.2))).at? (k :: path)
      = (Dict.get? d k).bind fun a => (f a).at? path := by
  have hget := Dict.get?_map (fun _ => f) d k
  rw [at?, hget]
  cases Dict.get? d k <;> rfl

mutual

def texts : Value → List String
  | .text s => [s]
  | .list items => textsOfItems items
  | .map members => textsOfMembers members
  | _ => []

def textsOfItems : List Value → List String
  | [] => []
  | v :: items => v.texts ++ textsOfItems items

def textsOfMembers : List (String × Value) → List String
  | [] => []
  | (_, v) :: members => v.texts ++ textsOfMembers members

end

theorem textsOfMembers_eq (members : Dict Value) :
    textsOfMembers members = members.flatMap fun m => m.2.texts := by
  induction members with
  | nil => rfl
  | cons m members ih => rw [textsOfMembers, ih, List.flatMap_cons]

end Value

namespace ClassMap

theorem at?_nested {α : Type} (f : α → Value) (d : Dict (Dict α)) (component element : String) :
    (nested f d).at? [component, element] = (Dict.at? d component element).map f := by
  have helements := Value.at?_members (fun elements : Dict α =>
    Value.map (elements.map fun m => (m.1, f m.2))) d component [element]
  refine helements.trans ?_
  rw [Dict.at?]
  cases Dict.get? d component with
  | none => rfl
  | some elements =>
    refine (Value.at?_members f elements element []).trans ?_
    exact (Option.map_eq_bind ..).symm

def classWords (text : String) : List String :=
  ((text.toList.splitOn ' ').filter fun word => !word.isEmpty).map String.ofList

def classesIn (record : Value) (field : String) : List String :=
  ((record.at? [field]).map Value.texts).getD [] |>.flatMap classWords

/-- A text without spaces that is not empty, so that it can stand among others in a list. -/
def IsListed (className : String) : Prop := className ≠ "" ∧ ' ' ∉ className.toList

theorem isListed_of_isWord {className : String} (h : ClassName.IsWord className.toList) :
    IsListed className :=
  ⟨fun hempty => h.1 (by rw [hempty]; rfl), fun hm => absurd ((h.2 ' ' hm).1) (by decide)⟩

theorem classWords_intercalate {classes : List String} (h : ∀ c ∈ classes, IsListed c) :
    classWords (" ".intercalate classes) = classes := by
  have hspace : ∀ word ∈ classes.map String.toList, ' ' ∉ word := by
    intro word hword
    obtain ⟨c, hc, rfl⟩ := List.mem_map.1 hword
    exact (h c hc).2
  have hne : ∀ word ∈ classes.map String.toList, (!word.isEmpty) = true := by
    intro word hword
    obtain ⟨c, hc, rfl⟩ := List.mem_map.1 hword
    simpa using (h c hc).1
  rw [classWords, String.toList_intercalate]
  by_cases hnil : classes = []
  · subst hnil
    rfl
  · have hsplit := List.splitOn_intercalate ' ' hspace (by simpa using hnil)
    rw [show " ".toList = [' '] from rfl, hsplit, List.filter_eq_self.2 hne, List.map_map]
    simp [Function.comp_def]

theorem mem_classWords_join {classes : List String}
    (h : ∀ c ∈ classes, ClassName.IsWord c.toList) {c : String} :
    c ∈ classWords (join classes) ↔ c ∈ classes := by
  rw [join, classWords_intercalate fun c hc => isListed_of_isWord (h c (List.mem_eraseDups.1 hc)),
    List.mem_eraseDups]

theorem get?_memberUnless (absent : Bool) (name field : String) (v : Value) :
    Dict.get? (if absent then [] else [(name, v)]) field
      = if name = field ∧ absent = false then some v else none := by
  cases absent with
  | true => simp
  | false => simp [Dict.get?_cons]

theorem get?_textMember (name text field : String) :
    Dict.get? (textMember name text) field
      = if name = field ∧ text.isEmpty = false then some (.text text) else none :=
  get?_memberUnless _ _ _ _

theorem get?_classesMember (name field : String) (classes : List String) :
    Dict.get? (classesMember name classes) field
      = if name = field ∧ classes.isEmpty = false then some (.text (join classes)) else none :=
  get?_memberUnless _ _ _ _

theorem classWords_empty {text : String} (h : text.isEmpty = true) : classWords text = [] := by
  rw [String.isEmpty_iff.1 h]
  rfl

theorem classesIn_map (members : Dict Value) (field : String) :
    classesIn (.map members) field
      = (((Dict.get? members field).map Value.texts).getD []).flatMap classWords := by
  simp only [classesIn, Value.at?]
  cases Dict.get? members field <;> rfl

theorem classesIn_core (r : CoreRecord) :
    classesIn r.toValue "d" = classWords r.decorations
      ∧ classesIn r.toValue "e" = classWords (join r.effects)
      ∧ classesIn r.toValue "c" = classWords (join r.selected)
      ∧ classesIn r.toValue "s" = r.sizes.flatMap fun (_, s) => classWords s := by
  simp only [CoreRecord.toValue, classesIn_map, Dict.get?_list_append, get?_textMember,
    get?_classesMember, get?_memberUnless]
  refine ⟨?_, ?_, ?_, ?_⟩
  · cases h : r.decorations.isEmpty with
    | false => simp [Value.texts]
    | true => simp [classWords_empty h]
  · cases h : r.effects with
    | nil => rfl
    | cons c effects => simp [Value.texts]
  · cases h : r.selected with
    | nil => rfl
    | cons c selected => simp [Value.texts]
  · cases h : r.sizes with
    | nil => rfl
    | cons c sizes =>
      simp [Value.texts, Value.textsOfMembers_eq, List.flatMap_map, List.flatMap_assoc]

section CoreRecord

variable {names : Dict String} {e : Entry}

theorem isWord_of_mem_map
    (hwords : ∀ key ∈ e.keys, ClassName.IsWord (ClassName.of names key).toList)
    {keys : List String} (hkeys : ∀ key ∈ keys, key ∈ e.keys) :
    ∀ c ∈ keys.map (ClassName.of names), ClassName.IsWord c.toList := by
  intro c hc
  obtain ⟨key, hkey, rfl⟩ := List.mem_map.1 hc
  exact hwords key (hkeys key hkey)

/-- The classes of the effects whose labels are of a kind. -/
theorem mem_effectWords (hwords : ∀ key ∈ e.keys, ClassName.IsWord (ClassName.of names key).toList)
    (p : String × List String → Bool) {c : String} :
    c ∈ classWords (join (((e.effects.getD []).filter p).flatMap fun m =>
        m.2.map (ClassName.of names)))
      ↔ ∃ label keys, (label, keys) ∈ e.effects.getD [] ∧ p (label, keys) = true
        ∧ ∃ key ∈ keys, ClassName.of names key = c := by
  have hpart : ∀ c, c ∈ ((e.effects.getD []).filter p).flatMap
        (fun m => m.2.map (ClassName.of names))
      ↔ ∃ label keys, (label, keys) ∈ e.effects.getD [] ∧ p (label, keys) = true
        ∧ ∃ key ∈ keys, ClassName.of names key = c := by
    intro c
    simp only [List.mem_flatMap, List.mem_filter, List.mem_map, Prod.exists, and_assoc]
  rw [mem_classWords_join fun c hc => ?_, hpart]
  obtain ⟨label, keys, hm, -, key, hk, rfl⟩ := (hpart c).1 hc
  exact hwords key (Entry.mem_keys.2 (.inr (.inr (.inl
    (Entry.mem_bucketKeys.2 ⟨label, keys, hm, hk⟩)))))

section

variable (hwords : ∀ key ∈ e.keys, ClassName.IsWord (ClassName.of names key).toList) {c : String}
include hwords

theorem mem_decorationClasses : c ∈ classesIn (coreRecord names e).toValue "d"
    ↔ ∃ key ∈ e.decorations.getD [], ClassName.of names key = c := by
  have hdecoration : ∀ key ∈ e.decorations.getD [], key ∈ e.keys :=
    fun key hk => Entry.mem_keys.2 (.inl hk)
  rw [(classesIn_core (coreRecord names e)).1, coreRecord,
    mem_classWords_join (isWord_of_mem_map hwords hdecoration), List.mem_map]

theorem mem_scaleClasses : c ∈ classesIn (coreRecord names e).toValue "s"
    ↔ ∃ key ∈ Entry.bucketKeys e.scales, ClassName.of names key = c := by
  have hscale : ∀ size keys, (size, keys) ∈ e.scales.getD [] → ∀ key ∈ keys, key ∈ e.keys :=
    fun size keys hm key hk =>
      Entry.mem_keys.2 (.inr (.inl (Entry.mem_bucketKeys.2 ⟨size, keys, hm, hk⟩)))
  rw [(classesIn_core (coreRecord names e)).2.2.2, coreRecord, List.mem_flatMap]
  simp only [List.mem_map, List.mem_filter, Prod.exists, Prod.mk.injEq, Entry.mem_bucketKeys]
  constructor
  · rintro ⟨_, _, ⟨size, keys, ⟨hm, -⟩, rfl, rfl⟩, hc⟩
    rw [mem_classWords_join (isWord_of_mem_map hwords (hscale size keys hm)), List.mem_map] at hc
    obtain ⟨key, hk, rfl⟩ := hc
    exact ⟨key, ⟨size, keys, hm, hk⟩, rfl⟩
  · rintro ⟨key, ⟨size, keys, hm, hk⟩, rfl⟩
    refine ⟨size, _, ⟨size, keys, ⟨hm, ?_⟩, rfl, rfl⟩, ?_⟩
    · cases keys with
      | nil => cases hk
      | cons => rfl
    · rw [mem_classWords_join (isWord_of_mem_map hwords (hscale size keys hm))]
      exact List.mem_map.2 ⟨key, hk, rfl⟩

/-- Effects are listed in two fields, those of selected elements apart. -/
theorem mem_effectClasses : c ∈ classesIn (coreRecord names e).toValue "e"
      ∨ c ∈ classesIn (coreRecord names e).toValue "c"
    ↔ ∃ key, e.HasEffect key ∧ ClassName.of names key = c := by
  obtain ⟨-, he, hc, -⟩ := classesIn_core (coreRecord names e)
  rw [he, hc, coreRecord, mem_effectWords hwords, mem_effectWords hwords]
  simp only [Entry.HasEffect, Entry.mem_bucketKeys]
  constructor
  · rintro (⟨label, keys, hm, -, key, hk, rfl⟩ | ⟨label, keys, hm, -, key, hk, rfl⟩)
    · exact ⟨key, ⟨label, keys, hm, hk⟩, rfl⟩
    · exact ⟨key, ⟨label, keys, hm, hk⟩, rfl⟩
  · rintro ⟨key, ⟨label, keys, hm, hk⟩, rfl⟩
    cases hlabel : isSelectedLabel label with
    | false => exact .inl ⟨label, keys, hm, by simp [hlabel], key, hk, rfl⟩
    | true => exact .inr ⟨label, keys, hm, by simp [hlabel], key, hk, rfl⟩

end

end CoreRecord

/-- Whether a class stands under some role and track. -/
def Lists (classes : ToneClasses) (c : String) : Prop :=
  ∃ role tracks track names, (role, tracks) ∈ classes ∧ (track, names) ∈ tracks ∧ c ∈ names

theorem lists_iff {classes : ToneClasses} (h : Dict.Distinct classes) {c : String} :
    Lists classes c ↔ ∃ role track, c ∈ Dict.getD (Dict.getD classes role []) track [] := by
  simp only [Dict.mem_getD_getD h, Lists]
  constructor
  · rintro ⟨role, tracks, track, names, hr, ht, hc⟩
    exact ⟨role, track, tracks, names, hr, ht, hc⟩
  · rintro ⟨role, track, tracks, names, hr, ht, hc⟩
    exact ⟨role, tracks, track, names, hr, ht, hc⟩

/-- The member of a record that classes by role and track make. -/
def tonesValue (classes : ToneClasses) : Value :=
  .map (classes.map fun (role, tracks) =>
    (role, .map (tracks.map fun (track, names) => (track, .text (join names)))))

theorem get?_tonesMember (name field : String) (classes : ToneClasses) :
    Dict.get? (tonesMember name classes) field
      = if name = field ∧ classes.isEmpty = false then some (tonesValue classes) else none :=
  get?_memberUnless _ _ _ _

theorem mem_classWords_tonesValue {classes : ToneClasses}
    (hwords : ∀ c, Lists classes c → ClassName.IsWord c.toList) {c : String} :
    c ∈ (Value.texts (tonesValue classes)).flatMap classWords ↔ Lists classes c := by
  simp only [tonesValue, Value.texts, Value.textsOfMembers_eq, List.flatMap_map, List.mem_flatMap,
    List.mem_singleton, Prod.exists, Lists]
  constructor
  · rintro ⟨_, ⟨role, tracks, hr, track, names, ht, rfl⟩, hc⟩
    rw [mem_classWords_join fun c hc => hwords c ⟨role, tracks, track, names, hr, ht, hc⟩] at hc
    exact ⟨role, tracks, track, names, hr, ht, hc⟩
  · rintro ⟨role, tracks, track, names, hr, ht, hc⟩
    refine ⟨_, ⟨role, tracks, hr, track, names, ht, rfl⟩, ?_⟩
    rwa [mem_classWords_join fun c hc => hwords c ⟨role, tracks, track, names, hr, ht, hc⟩]

theorem mem_classesIn_palette {r : PaletteRecord}
    (hwords : ∀ c, Lists r.plain c ∨ Lists r.selected c → ClassName.IsWord c.toList) {c : String} :
    c ∈ classesIn r.toValue "p" ∨ c ∈ classesIn r.toValue "c"
      ↔ Lists r.plain c ∨ Lists r.selected c := by
  have hfield : ∀ (field : String) (classes : ToneClasses),
      (∀ c, Lists classes c → ClassName.IsWord c.toList) →
      Dict.get? (tonesMember "p" r.plain ++ tonesMember "c" r.selected) field
        = Dict.get? (tonesMember field classes) field →
      (c ∈ classesIn r.toValue field ↔ Lists classes c) := by
    intro field classes hwords hget
    rw [PaletteRecord.toValue, classesIn_map, hget, get?_tonesMember]
    cases classes with
    | nil => simp [Lists]
    | cons m classes => simpa using mem_classWords_tonesValue hwords
  rw [hfield "p" r.plain (fun c h => hwords c (.inl h)) ?_,
    hfield "c" r.selected (fun c h => hwords c (.inr h)) ?_]
  · simp [Dict.get?_list_append, get?_tonesMember]
  · simp [Dict.get?_list_append, get?_tonesMember]

/-- The cells of a palette of an element: labels, roles and tracks with their keys. -/
def cells (roles : Dict Buckets) (tones : Dict (Dict Buckets)) :
    List (String × String × String × List String) :=
  roles.flatMap fun (role, labels) => labels.flatMap fun (label, keys) =>
    (tracksOf tones role label keys).map fun (track, keys) => (label, role, track, keys)

/-- Files cells by role and track. -/
def fileCells (names : Dict String) (cells : List (String × String × String × List String)) :
    ToneClasses :=
  cells.foldl (fun classes (_, role, track, keys) => fileTrack names classes role track keys) []

theorem distinct_fileCells (names : Dict String)
    (cells : List (String × String × String × List String)) :
    Dict.Distinct (fileCells names cells) := by
  suffices h : ∀ classes : ToneClasses, Dict.Distinct classes →
      Dict.Distinct (cells.foldl (fun classes (_, role, track, keys) =>
        fileTrack names classes role track keys) classes) from h [] .nil
  induction cells with
  | nil => exact fun _ h => h
  | cons cell cells ih => exact fun _ h => ih _ (h.update_append _ _ _)

/-- The classes under a role and a track are those of the cells there, in their order. -/
theorem getD_fileCells (names : Dict String)
    (cells : List (String × String × String × List String)) (role track : String) :
    Dict.getD (Dict.getD (fileCells names cells) role []) track []
      = (cells.filter fun m => m.2.1 = role ∧ m.2.2.1 = track).flatMap fun m =>
        m.2.2.2.map (ClassName.of names) := by
  suffices h : ∀ classes : ToneClasses, Dict.getD (Dict.getD (cells.foldl
        (fun classes (_, role, track, keys) => fileTrack names classes role track keys) classes)
        role []) track []
      = Dict.getD (Dict.getD classes role []) track []
        ++ (cells.filter fun m => m.2.1 = role ∧ m.2.2.1 = track).flatMap fun m =>
          m.2.2.2.map (ClassName.of names) from h []
  induction cells with
  | nil => simp
  | cons cell cells ih =>
    intro classes
    obtain ⟨label, role', track', keys⟩ := cell
    rw [List.foldl_cons, ih]
    dsimp only [fileTrack]
    rw [Dict.getD_getD_update_append, List.append_assoc]
    by_cases h : role' = role ∧ track' = track <;> simp [h]

theorem mem_getD_fileCells {names : Dict String}
    {cells : List (String × String × String × List String)} {role track c : String} :
    c ∈ Dict.getD (Dict.getD (fileCells names cells) role []) track []
      ↔ ∃ label keys, (label, role, track, keys) ∈ cells
        ∧ ∃ key ∈ keys, ClassName.of names key = c := by
  simp only [getD_fileCells, List.mem_flatMap, List.mem_filter, decide_eq_true_eq, List.mem_map,
    Prod.exists]
  constructor
  · rintro ⟨label, _, _, keys, ⟨hm, rfl, rfl⟩, hc⟩
    exact ⟨label, keys, hm, hc⟩
  · rintro ⟨label, keys, hm, hc⟩
    exact ⟨label, role, track, keys, ⟨hm, rfl, rfl⟩, hc⟩

theorem lists_fileCells {names : Dict String}
    {cells : List (String × String × String × List String)} {c : String} :
    Lists (fileCells names cells) c ↔ ∃ label role track keys, (label, role, track, keys) ∈ cells
      ∧ ∃ key ∈ keys, ClassName.of names key = c := by
  simp only [lists_iff (distinct_fileCells names cells), mem_getD_fileCells]
  constructor
  · rintro ⟨role, track, label, keys, h⟩
    exact ⟨label, role, track, keys, h⟩
  · rintro ⟨label, role, track, keys, h⟩
    exact ⟨role, track, label, keys, h⟩

theorem mem_cells {roles : Dict Buckets} {tones : Dict (Dict Buckets)}
    {label role track : String} {tracked : List String} :
    (label, role, track, tracked) ∈ cells roles tones
      ↔ ∃ labels keys, (role, labels) ∈ roles ∧ (label, keys) ∈ labels
        ∧ (track, tracked) ∈ tracksOf tones role label keys := by
  simp only [cells, List.mem_flatMap, List.mem_map, Prod.exists, Prod.mk.injEq]
  constructor
  · rintro ⟨_, labels, hr, _, keys, hl, _, _, ht, rfl, rfl, rfl, rfl⟩
    exact ⟨labels, keys, hr, hl, ht⟩
  · rintro ⟨labels, keys, hr, hl, ht⟩
    exact ⟨role, labels, hr, label, keys, hl, track, tracked, ht, rfl, rfl, rfl, rfl⟩

/-- The classes that a palette's record has in the selected scope, or out of it. -/
def PaletteRecord.classes (r : PaletteRecord) (selected : Bool) : ToneClasses :=
  if selected then r.selected else r.plain

theorem classes_paletteRecord (names : Dict String) (roles : Dict Buckets)
    (tones : Dict (Dict Buckets)) (selected : Bool) :
    (paletteRecord names roles tones).classes selected
      = fileCells names ((cells roles tones).filter fun m => isSelectedLabel m.1 == selected) := by
  cases selected with
  | false =>
    have hnot : ∀ b : Bool, (b == false) = !b := by decide
    simp only [hnot]
    rfl
  | true =>
    have hself : ∀ b : Bool, (b == true) = b := by decide
    simp only [hself]
    rfl

/-- The classes of a palette's record are the names of the palette's keys, if for every label the
tracks recorded for it have its keys. -/
theorem lists_paletteRecord {names : Dict String} {roles : Dict Buckets}
    {tones : Dict (Dict Buckets)}
    (h : ∀ role labels label keys, (role, labels) ∈ roles → (label, keys) ∈ labels → ∀ key,
      (∃ track tracked, (track, tracked) ∈ tracksOf tones role label keys ∧ key ∈ tracked)
        ↔ key ∈ keys) {c : String} :
    Lists (paletteRecord names roles tones).plain c
        ∨ Lists (paletteRecord names roles tones).selected c
      ↔ ∃ key ∈ BundleRules.roleKeys roles, ClassName.of names key = c := by
  have hkeys : ∀ key, key ∈ BundleRules.roleKeys roles ↔ ∃ role labels label keys,
      (role, labels) ∈ roles ∧ (label, keys) ∈ labels ∧ key ∈ keys := by
    intro key
    simp only [BundleRules.roleKeys, List.mem_flatMap, Entry.mem_bucketKeys, Prod.exists,
      Option.getD_some]
    constructor
    · rintro ⟨role, labels, hr, label, keys, hl, hk⟩
      exact ⟨role, labels, label, keys, hr, hl, hk⟩
    · rintro ⟨role, labels, label, keys, hr, hl, hk⟩
      exact ⟨role, labels, hr, label, keys, hl, hk⟩
  have hfield : ∀ selected, Lists ((paletteRecord names roles tones).classes selected) c
      ↔ ∃ label role track tracked, ((label, role, track, tracked) ∈ cells roles tones
        ∧ isSelectedLabel label = selected) ∧ ∃ key ∈ tracked, ClassName.of names key = c := by
    intro selected
    rw [classes_paletteRecord, lists_fileCells]
    simp only [List.mem_filter, beq_iff_eq]
  refine (or_congr (hfield false) (hfield true)).trans ?_
  simp only [mem_cells]
  constructor
  · rintro (⟨label, role, track, tracked, ⟨⟨labels, keys, hr, hl, ht⟩, -⟩, key, hk, rfl⟩
      | ⟨label, role, track, tracked, ⟨⟨labels, keys, hr, hl, ht⟩, -⟩, key, hk, rfl⟩)
    all_goals
      have hk := (h role labels label keys hr hl key).1 ⟨track, tracked, ht, hk⟩
      exact ⟨key, (hkeys key).2 ⟨role, labels, label, keys, hr, hl, hk⟩, rfl⟩
  · rintro ⟨key, hk, rfl⟩
    obtain ⟨role, labels, label, keys, hr, hl, hk⟩ := (hkeys key).1 hk
    obtain ⟨track, tracked, ht, hk⟩ := (h role labels label keys hr hl key).2 hk
    cases hlabel : isSelectedLabel label with
    | false =>
      exact .inl ⟨label, role, track, tracked, ⟨⟨labels, keys, hr, hl, ht⟩, hlabel⟩, key, hk, rfl⟩
    | true =>
      exact .inr ⟨label, role, track, tracked, ⟨⟨labels, keys, hr, hl, ht⟩, hlabel⟩, key, hk, rfl⟩

end ClassMap
end AtomicCss

import AtomicCss.ClassMap
import AtomicCss.Proofs.Tree

/-!
# Places in split class maps

The core map has one record for each entry of the tree, and a palette's map one for each entry with
that palette.
-/
namespace AtomicCss.ClassMap

variable {names : Dict String} {tones : Dict (Dict ToneMetadata)} {t : KeyTree}

def record? (palettes : Dict (Dict (Dict PaletteRecord))) (palette component element : String) :
    Option PaletteRecord := (palettes.get? palette).bind fun d => Dict.at? d component element

theorem record?_filePalette (palettes : Dict (Dict (Dict PaletteRecord)))
    (p c e p' c' e' : String) (r : PaletteRecord) :
    record? (filePalette palettes p c e r) p' c' e'
      = if p = p' ∧ c = c' ∧ e = e' then some r else record? palettes p' c' e' := by
  simp only [record?, filePalette, Dict.get?_update]
  by_cases hp : p = p'
  · subst hp
    simp only [if_true, Option.bind_some, true_and]
    refine (Dict.at?_update_set _ c e c' e' r).trans ?_
    cases palettes.get? p <;> rfl
  · simp [hp]

structure Filed where
  palette : String
  component : String
  element : String
  record : PaletteRecord

def Filed.into (palettes : Dict (Dict (Dict PaletteRecord))) (f : Filed) :
    Dict (Dict (Dict PaletteRecord)) :=
  filePalette palettes f.palette f.component f.element f.record

def Filed.place (f : Filed) : String × String × String := (f.palette, f.component, f.element)

/-- What filing preserves: nothing stands twice, and just the palettes filed under appear. -/
structure Tidy (filed : List Filed) (palettes : Dict (Dict (Dict PaletteRecord))) : Prop where
  keyed : Dict.Keyed Dict.Distinct palettes
  names : ∀ p, p ∈ Dict.keys palettes ↔ ∃ f ∈ filed, f.palette = p

theorem Tidy.into {filed : List Filed} {palettes : Dict (Dict (Dict PaletteRecord))}
    (h : Tidy filed palettes) (f : Filed) : Tidy (filed ++ [f]) (f.into palettes) where
  keyed := h.keyed.update f.palette fun _ he =>
    Dict.Distinct.update_set (Dict.Keyed.getD_of_forall he .nil) f.component f.element f.record
  names := by
    intro p
    have hset : p ∈ Dict.keys (f.into palettes) ↔ p = f.palette ∨ p ∈ Dict.keys palettes :=
      Dict.mem_keys_set
    rw [hset, h.names p, or_comm, eq_comm]
    simp only [List.mem_append, List.mem_singleton, or_and_right, exists_or, exists_eq_left]

theorem tidy_foldl (filed : List Filed) : Tidy filed (filed.foldl Filed.into []) := by
  suffices h : ∀ pre palettes, Tidy pre palettes →
      Tidy (pre ++ filed) (filed.foldl Filed.into palettes) from
    h [] [] ⟨.nil, by simp [Dict.keys]⟩
  induction filed with
  | nil =>
    intro pre palettes h
    rwa [List.append_nil]
  | cons f filed ih =>
    intro pre palettes h
    rw [List.append_cons]
    exact ih _ _ (h.into f)

/-- Of records whose places differ, all are found where they were filed. -/
theorem record?_foldl {filed : List Filed} (h : (filed.map Filed.place).Nodup)
    (palettes : Dict (Dict (Dict PaletteRecord))) {p c e : String} {r : PaletteRecord} :
    record? (filed.foldl Filed.into palettes) p c e = some r ↔ ⟨p, c, e, r⟩ ∈ filed
      ∨ (p, c, e) ∉ filed.map Filed.place ∧ record? palettes p c e = some r := by
  induction filed generalizing palettes with
  | nil => simp
  | cons f filed ih =>
    obtain ⟨p', c', e', r'⟩ := f
    rw [List.map_cons, List.nodup_cons] at h
    obtain ⟨hf, h⟩ := h
    rw [List.foldl_cons, ih h, Filed.into, record?_filePalette]
    simp only [List.map_cons, List.mem_cons, Filed.place, Filed.mk.injEq, Prod.mk.injEq] at hf ⊢
    by_cases hplace : p = p' ∧ c = c' ∧ e = e'
    · obtain ⟨rfl, rfl, rfl⟩ := hplace
      have hnot : (⟨p, c, e, r⟩ : Filed) ∉ filed := fun hm => hf (List.mem_map.2 ⟨_, hm, rfl⟩)
      simp [hnot, hf, eq_comm]
    · have hplace' : ¬(p' = p ∧ c' = c ∧ e' = e) := fun ⟨a, b, c⟩ => hplace ⟨a.symm, b.symm, c.symm⟩
      have hne : ¬(p = p' ∧ c = c' ∧ e = e' ∧ r = r') := fun ⟨a, b, c, _⟩ => hplace ⟨a, b, c⟩
      simp [hplace, hplace', hne]

/-- The record of an element in a palette with the tone metadata of the palette. -/
def recordOf (names : Dict String) (tones : Dict (Dict ToneMetadata))
    (component element palette : String) (roles : Dict Buckets) : PaletteRecord :=
  paletteRecord names roles (((tones.getD component []).getD element []).getD palette [])

def filed (names : Dict String) (tones : Dict (Dict ToneMetadata)) (t : KeyTree) : List Filed :=
  t.entries.flatMap fun (component, element, e) => (e.palettes.getD []).map fun (palette, roles) =>
    ⟨palette, component, element, recordOf names tones component element palette roles⟩

theorem split_palettes (names : Dict String) (tones : Dict (Dict ToneMetadata)) (t : KeyTree) :
    (split names tones t).palettes = (filed names tones t).foldl Filed.into [] := by
  rw [filed, List.foldl_flatMap]
  simp only [List.foldl_map]
  rfl

theorem mem_filed {p c e : String} {r : PaletteRecord} :
    ⟨p, c, e, r⟩ ∈ filed names tones t ↔ ∃ entry roles, (c, e, entry) ∈ t.entries
      ∧ (p, roles) ∈ entry.palettes.getD [] ∧ r = recordOf names tones c e p roles := by
  simp only [filed, List.mem_flatMap, List.mem_map, Filed.mk.injEq, Prod.exists]
  constructor
  · rintro ⟨_, _, entry, he, _, roles, hp, rfl, rfl, rfl, rfl⟩
    exact ⟨entry, roles, he, hp, rfl⟩
  · rintro ⟨entry, roles, he, hp, rfl⟩
    exact ⟨c, e, entry, he, p, roles, hp, rfl, rfl, rfl, rfl⟩

theorem nodup_filed (ht : Dict.Distinct t) (hp : ∀ component element e,
    (component, element, e) ∈ t.entries → (Dict.keys (e.palettes.getD [])).Nodup) :
    ((filed names tones t).map Filed.place).Nodup := by
  rw [filed, List.map_flatMap, List.nodup_flatMap]
  refine ⟨?_, ?_⟩
  · rintro ⟨component, element, e⟩ hm
    have hmap : ((e.palettes.getD []).map fun (palette, roles) => (⟨palette, component, element,
        recordOf names tones component element palette roles⟩ : Filed)).map Filed.place
          = (Dict.keys (e.palettes.getD [])).map fun palette => (palette, component, element) := by
      simp [Dict.keys, Filed.place, Function.comp_def]
    rw [hmap]
    exact (hp component element e hm).map fun _ _ h => (Prod.mk.inj h).1
  · have hplaces := List.pairwise_map.1 (KeyTree.nodup_places ht)
    refine hplaces.imp fun {a b} hne place ha hb => hne ?_
    simp only [List.map_map, List.mem_map, Function.comp_apply, Filed.place] at ha hb
    obtain ⟨_, _, rfl⟩ := ha
    obtain ⟨_, _, heq⟩ := hb
    simp only [Prod.mk.injEq] at heq ⊢
    exact ⟨heq.2.1.symm, heq.2.2.symm⟩

theorem record?_split (ht : Dict.Distinct t) (hp : ∀ component element e,
    (component, element, e) ∈ t.entries → (Dict.keys (e.palettes.getD [])).Nodup)
    {p c e : String} {r : PaletteRecord} :
    record? (split names tones t).palettes p c e = some r ↔ ∃ entry roles,
      (c, e, entry) ∈ t.entries ∧ (p, roles) ∈ entry.palettes.getD []
        ∧ r = recordOf names tones c e p roles := by
  rw [split_palettes, record?_foldl (nodup_filed ht hp), mem_filed]
  simp [record?]

/-- The palettes of the split map are those of the tree. -/
theorem mem_keys_split_palettes {palette : String} :
    palette ∈ Dict.keys (split names tones t).palettes ↔ palette ∈ t.paletteNames := by
  rw [split_palettes, (tidy_foldl _).names, KeyTree.mem_paletteNames]
  constructor
  · rintro ⟨⟨p, c, e, r⟩, hf, rfl⟩
    obtain ⟨entry, roles, he, hp, -⟩ := mem_filed.1 hf
    exact ⟨c, e, entry, roles, he, hp⟩
  · rintro ⟨c, e, entry, roles, he, hp⟩
    exact ⟨_, mem_filed.2 ⟨entry, roles, he, hp, rfl⟩, rfl⟩

theorem nodup_keys_split_palettes (names : Dict String) (tones : Dict (Dict ToneMetadata))
    (t : KeyTree) : (Dict.keys (split names tones t).palettes).Nodup := by
  rw [split_palettes]
  exact (tidy_foldl _).keyed.nodup

end AtomicCss.ClassMap

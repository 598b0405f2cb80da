import AtomicCss.ClassMap
import AtomicCss.Proofs.Sections

/-!
# Palette keys and tone metadata agree

The keys of a section of palettes are filed twice, by palette, role and label, and by the track as
well. Under every label the tracks together hold just the keys of the label.
-/
namespace AtomicCss

namespace Keys

def labelled (m : PaletteKeys) (palette role label : String) : List String :=
  (((m.getD palette []).getD role []).getD label [])

def tracked (m : ToneMetadata) (palette role label track : String) : List String :=
  ((((m.getD palette []).getD role []).getD label []).getD track [])

theorem labelled_fileByLabel (m : PaletteKeys) (e : Emission) (p r l : String) :
    labelled (fileByLabel m e) p r l = labelled m p r l
      ++ if e.palette = p ∧ e.role = r ∧ e.label = l then [e.key] else [] := by
  rw [labelled, fileByLabel, Dict.getD_update, labelled]
  by_cases hp : e.palette = p
  · subst hp
    rw [if_pos rfl]
    refine (Dict.getD_getD_update_append _ _ _ _ _ _).trans ?_
    simp only [true_and]
    rfl
  · simp [hp]

theorem tracked_fileByTrack (m : ToneMetadata) (e : Emission) (p r l t : String) :
    tracked (fileByTrack m e) p r l t = tracked m p r l t
      ++ if e.palette = p ∧ e.role = r ∧ e.label = l ∧ e.track.name = t then [e.key] else [] := by
  rw [tracked, fileByTrack, Dict.getD_update, tracked]
  by_cases hp : e.palette = p
  · subst hp
    rw [if_pos rfl, Dict.getD_update]
    by_cases hr : e.role = r
    · subst hr
      rw [if_pos rfl]
      refine (Dict.getD_getD_update_append _ _ _ _ _ _).trans ?_
      simp only [true_and]
      rfl
    · simp only [hr, if_false, false_and, and_false, List.append_nil]
      rfl
  · simp [hp]

/-- If one step files the key of an emission where the emission fits, then a run files the keys of
all emissions that fit, in their order. -/
theorem look_foldl_file {μ : Type} {file : μ → Emission → μ} {Fits : Emission → Prop}
    [DecidablePred Fits] (look : μ → List String)
    (step : ∀ m e, look (file m e) = look m ++ if Fits e then [e.key] else [])
    (es : List Emission) (m : μ) :
    look (es.foldl file m) = look m ++ (es.filter fun e => Fits e).map (·.key) := by
  induction es generalizing m with
  | nil => simp
  | cons e es ih =>
    rw [List.foldl_cons, ih, step]
    by_cases h : Fits e <;> simp [h]

theorem labelled_foldl (es : List Emission) (p r l : String) :
    labelled (es.foldl fileByLabel []) p r l
      = (es.filter fun e => e.palette = p ∧ e.role = r ∧ e.label = l).map (·.key) :=
  look_foldl_file (labelled · p r l) (fun m e => labelled_fileByLabel m e p r l) es []

theorem tracked_foldl (es : List Emission) (p r l t : String) :
    tracked (es.foldl fileByTrack []) p r l t
      = (es.filter fun e => e.palette = p ∧ e.role = r ∧ e.label = l ∧ e.track.name = t).map
        (·.key) :=
  look_foldl_file (tracked · p r l t) (fun m e => tracked_fileByTrack m e p r l t) es []

theorem mem_labelled {es : List Emission} {p r l key : String} :
    key ∈ labelled (es.foldl fileByLabel []) p r l ↔
      ∃ e ∈ es, (e.palette = p ∧ e.role = r ∧ e.label = l) ∧ e.key = key := by
  simp only [labelled_foldl, List.mem_map, List.mem_filter, decide_eq_true_eq, and_assoc]

theorem mem_tracked {es : List Emission} {p r l t key : String} :
    key ∈ tracked (es.foldl fileByTrack []) p r l t ↔ ∃ e ∈ es,
      (e.palette = p ∧ e.role = r ∧ e.label = l ∧ e.track.name = t) ∧ e.key = key := by
  simp only [tracked_foldl, List.mem_map, List.mem_filter, decide_eq_true_eq, and_assoc]

theorem keyed_byLabel (es : List Emission) :
    Dict.Keyed Dict.Distinct (es.foldl fileByLabel []) := by
  suffices h : ∀ m, Dict.Keyed Dict.Distinct m → Dict.Keyed Dict.Distinct (es.foldl fileByLabel m)
    from h [] .nil
  induction es with
  | nil => exact fun m h => h
  | cons e es ih =>
    refine fun m h => ih _ (h.update e.palette fun roles hroles => ?_)
    refine Dict.Keyed.update (Dict.Keyed.getD_of_forall hroles .nil) e.role fun labels hlabels => ?_
    exact Dict.nodup_keys_append (Dict.Keyed.getD_of_forall hlabels Dict.nodup_keys_nil) e.label _

theorem keyed_byTrack (es : List Emission) :
    Dict.Keyed (Dict.Keyed Dict.Distinct) (es.foldl fileByTrack []) := by
  suffices h : ∀ m, Dict.Keyed (Dict.Keyed Dict.Distinct) m →
      Dict.Keyed (Dict.Keyed Dict.Distinct) (es.foldl fileByTrack m) from h [] .nil
  induction es with
  | nil => exact fun m h => h
  | cons e es ih =>
    refine fun m h => ih _ (h.update e.palette fun roles hroles => ?_)
    refine Dict.Keyed.update (Dict.Keyed.getD_of_forall hroles .nil) e.role fun labels hlabels => ?_
    refine Dict.Keyed.update (Dict.Keyed.getD_of_forall hlabels .nil) e.label fun tracks ht => ?_
    exact Dict.nodup_keys_append (Dict.Keyed.getD_of_forall ht Dict.nodup_keys_nil) e.track.name _

section Tracks

variable {es : List Emission} {palette role label key : String} {roles : Dict Buckets}
  {labels : Buckets} {keys : List String}

theorem labelled_of_mem (hp : (palette, roles) ∈ es.foldl fileByLabel [])
    (hr : (role, labels) ∈ roles) (hl : (label, keys) ∈ labels) :
    labelled (es.foldl fileByLabel []) palette role label = keys := by
  have hkeyed := keyed_byLabel es
  have hroles := hkeyed.all palette roles hp
  rw [labelled, Dict.getD_of_mem hkeyed.nodup hp, Dict.getD_of_mem hroles.nodup hr,
    Dict.getD_of_mem (hroles.all role labels hr) hl]

theorem exists_tracked (h : key ∈ labelled (es.foldl fileByLabel []) palette role label) :
    ∃ track, key ∈ tracked (es.foldl fileByTrack []) palette role label track := by
  obtain ⟨e, he, ⟨hp, hr, hl⟩, hkey⟩ := mem_labelled.1 h
  exact ⟨e.track.name, mem_tracked.2 ⟨e, he, ⟨hp, hr, hl, rfl⟩, hkey⟩⟩

theorem nodup_keys_tracks {tracks : Dict (List String)}
    (h : Dict.get? (Dict.getD (Dict.getD (es.foldl fileByTrack []) palette []) role []) label
      = some tracks) : (Dict.keys tracks).Nodup := by
  have hroles := Dict.Keyed.getD_of_forall
    (fun roles (h : Dict.get? (es.foldl fileByTrack []) palette = some roles) =>
      (keyed_byTrack es).get? h) .nil
  have hlabels := Dict.Keyed.getD_of_forall
    (fun labels (h : Dict.get? (Dict.getD (es.foldl fileByTrack []) palette []) role
      = some labels) => hroles.get? h) .nil
  exact hlabels.get? h

/-- The keys that a label has on a track are those recorded for the track. Every label has been
recorded, so its keys are never taken as soft for want of a record. -/
theorem mem_tracksOf_track (hp : (palette, roles) ∈ es.foldl fileByLabel [])
    (hr : (role, labels) ∈ roles) (hl : (label, keys) ∈ labels) {track : String} :
    (∃ items, (track, items) ∈ ClassMap.tracksOf
      (Dict.getD (es.foldl fileByTrack []) palette []) role label keys ∧ key ∈ items)
      ↔ key ∈ tracked (es.foldl fileByTrack []) palette role label track := by
  have hlabelled := labelled_of_mem hp hr hl
  have htracked : ∀ track, tracked (es.foldl fileByTrack []) palette role label track
      = Dict.getD ((Dict.get? (Dict.getD (Dict.getD (es.foldl fileByTrack []) palette []) role [])
        label).getD []) track [] := fun _ => rfl
  -- Without a record the keys are taken as soft, but then there are none.
  have hsoft : (∀ track, tracked (es.foldl fileByTrack []) palette role label track = []) →
      ((∃ items, (track, items) ∈ [(Track.soft.name, keys)] ∧ key ∈ items)
        ↔ key ∈ tracked (es.foldl fileByTrack []) palette role label track) := by
    intro hnone
    have hunrecorded : key ∉ keys := by
      intro hk
      obtain ⟨track, hk⟩ := exists_tracked (hlabelled ▸ hk)
      rw [hnone] at hk
      cases hk
    simp [hnone, hunrecorded]
  rw [ClassMap.tracksOf]
  split
  · next hget => exact hsoft fun track => by rw [htracked, hget]; rfl
  · next hget => exact hsoft fun track => by rw [htracked, hget]; rfl
  · next tracks _ hget =>
    have hnodup := nodup_keys_tracks hget
    rw [htracked, hget, Option.getD_some]
    constructor
    · rintro ⟨items, hm, hk⟩
      rwa [Dict.getD_of_mem hnodup hm]
    · intro hk
      rw [Dict.getD] at hk
      cases htrack : Dict.get? tracks track with
      | none => simp [htrack] at hk
      | some items =>
        rw [htrack] at hk
        exact ⟨items, Dict.mem_of_get? htrack, hk⟩

/-- Among them, the tracks recorded for a label have just the keys of the label. -/
theorem mem_tracksOf (hp : (palette, roles) ∈ es.foldl fileByLabel [])
    (hr : (role, labels) ∈ roles) (hl : (label, keys) ∈ labels) :
    (∃ track items, (track, items) ∈ ClassMap.tracksOf
      (Dict.getD (es.foldl fileByTrack []) palette []) role label keys ∧ key ∈ items)
      ↔ key ∈ keys := by
  simp only [mem_tracksOf_track hp hr hl]
  constructor
  · rintro ⟨track, hk⟩
    obtain ⟨e, he, ⟨hep, her, hel, -⟩, hkey⟩ := mem_tracked.1 hk
    rw [← labelled_of_mem hp hr hl]
    exact mem_labelled.2 ⟨e, he, ⟨hep, her, hel⟩, hkey⟩
  · intro hk
    exact exists_tracked (labelled_of_mem hp hr hl ▸ hk)

end Tracks

end Keys

namespace Compiled.SectionsOf

variable {e : Element} {entry : Entry} {section? : Option Keys.PaletteSection}

/-- The palettes of an entry and their metadata are filed from the same emissions. -/
theorem exists_emissions (h : SectionsOf e entry section?) {palette : String}
    {roles : Dict Buckets} (hp : (palette, roles) ∈ entry.palettes.getD []) :
    ∃ (es : List Keys.Emission) (p : Keys.PaletteSection), section? = some p
      ∧ entry.palettes = some (es.foldl Keys.fileByLabel [])
      ∧ p.tones = es.foldl Keys.fileByTrack [] := by
  obtain ⟨hsection, hkeys⟩ := h.palettes
  obtain ⟨-, hnone⟩ | ⟨members, p, -, hsome, hof⟩ := mapM_option_eq_ok.1 hsection
  · simp [hkeys, hnone] at hp
  · simp only [Keys.ofPalettes, bind_eq_ok, pure_eq_ok] at hof
    obtain ⟨es, -, rfl⟩ := hof
    subst hsome
    exact ⟨es, _, rfl, hkeys, rfl⟩

theorem nodup_palettes (h : SectionsOf e entry section?) :
    (Dict.keys (entry.palettes.getD [])).Nodup := by
  cases hp : entry.palettes.getD [] with
  | nil => exact Dict.nodup_keys_nil
  | cons m d =>
    obtain ⟨es, -, -, hkeys, -⟩ := h.exists_emissions (hp ▸ List.mem_cons_self)
    rw [← hp, hkeys]
    exact (Keys.keyed_byLabel es).nodup

end Compiled.SectionsOf
end AtomicCss

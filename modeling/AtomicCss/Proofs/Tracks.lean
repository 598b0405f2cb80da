import AtomicCss.Proofs.ElementCalls
import AtomicCss.Proofs.ReorderedTree

/-!
# The tracks of palette keys

The keys of palettes are filed twice while they are walked: in the tree, and track by track in the
metadata beside it. In a compiled schema the tracks of a label hold the keys of the label, each as
often, and the number of palette keys is that of all of them.
-/
namespace AtomicCss

namespace Keys

def trackKeys (m : ToneMetadata) (palette role label : String) : List String :=
  Entry.bucketKeys (some (((m.getD palette []).getD role []).getD label []))

theorem trackKeys_fileByTrack_perm (m : ToneMetadata) (e : Emission) (p r l : String) :
    (trackKeys (fileByTrack m e) p r l).Perm (trackKeys m p r l
      ++ if e.palette = p ∧ e.role = r ∧ e.label = l then [e.key] else []) := by
  rw [trackKeys, fileByTrack, Dict.getD_update, trackKeys]
  by_cases hp : e.palette = p
  · subst hp
    rw [if_pos rfl, Dict.getD_update]
    by_cases hr : e.role = r
    · subst hr
      rw [if_pos rfl, Dict.getD_update]
      by_cases hl : e.label = l
      · subst hl
        simp only [if_true, true_and]
        exact Entry.bucketKeys_append_perm _ _ _
      · simp only [hl, if_false, and_false, List.append_nil]
        exact .refl _
    · simp only [hr, if_false, false_and, and_false, List.append_nil]
      exact .refl _
  · simp [hp]

/-- Filed by track, the keys of a label are those filed by label alone. -/
theorem trackKeys_perm (es : List Emission) (p r l : String) :
    (trackKeys (es.foldl fileByTrack []) p r l).Perm
      (labelled (es.foldl fileByLabel []) p r l) := by
  have htracks := foldl_file_perm (fun m => trackKeys m p r l)
    (fun m e => trackKeys_fileByTrack_perm m e p r l) es []
  have hlabels := foldl_file_perm (fun m => labelled m p r l)
    (fun m e => List.Perm.of_eq (labelled_fileByLabel m e p r l)) es []
  exact htracks.trans hlabels.symm

end Keys

namespace Compiled

variable {s : Schema} {c : Compiled} {e : Element} {entry : Entry} {component element : String}

def callsOf (places : List (String × String × Element)) : List Call :=
  places.map fun (component, element, e) => ⟨component, element, e⟩

/-- What is recorded of some elements is what the calls record that compile them. -/
structure RecordsCalls (places : List (String × String × Element)) (c : Compiled) : Prop where
  tones : c.tones = (recordAll {} (callsOf places)).tones
  count : c.paletteKeyCount = (recordAll {} (callsOf places)).paletteKeyCount

theorem RecordsCalls.add {places : List (String × String × Element)} {c c' : Compiled}
    (hc : c.RecordsCalls places) (h : c.add component element e = .ok c') :
    c'.RecordsCalls (places ++ [(component, element, e)]) := by
  obtain ⟨entry, section?, hentry, rfl⟩ := add_eq_ok.1 h
  obtain rfl := recordedOf?_of_entryOf hentry
  have hcalls : callsOf (places ++ [(component, element, e)])
      = callsOf places ++ [⟨component, element, e⟩] := List.map_append
  refine ⟨?tones, ?count⟩
  case tones =>
    rw [hcalls, recordAll_concat]
    cases recordedOf? e with
    | none => exact hc.tones
    | some p => simp only [record, hc.tones]
  case count =>
    rw [hcalls, recordAll_concat]
    calc (c.record component element (recordedOf? e)).paletteKeyCount
        = c.paletteKeyCount + ((recordedOf? e).map (·.count)).getD 0 := count_record ..
      _ = (recordAll {} (callsOf places)).paletteKeyCount
          + ((recordedOf? e).map (·.count)).getD 0 := by rw [hc.count]
      _ = _ := (count_record ..).symm

theorem recordsCalls_of_ofSchema (h : ofSchema s = .ok c) : c.RecordsCalls s.places := by
  have hempty : RecordsCalls [] {} := ⟨rfl, rfl⟩
  rw [ofSchema_eq] at h
  exact foldlM_invariant (P := RecordsCalls) (fun _ _ _ _ hc h => hc.add h) hempty h

/-- The metadata at the place of an element is that of its own palettes. -/
theorem at?_tones_of_mem (h : ofSchema s = .ok c) (hs : s.DistinctPlaces)
    (he : (component, element, e) ∈ s.places) :
    Dict.at? c.tones component element = (recordedOf? e).map (·.tones) := by
  have hfilter : (callsOf s.places).filter
      (fun call => (call.component, call.element) = (component, element))
        = [⟨component, element, e⟩] := by
    have hmem : (⟨component, element, e⟩ : Call) ∈ callsOf s.places :=
      List.mem_map.2 ⟨_, he, rfl⟩
    refine filter_eq_singleton (f := fun call : Call => (call.component, call.element)) ?_ hmem
    rw [callsOf, List.map_map]
    exact hs
  have hat : recordedAt (callsOf s.places) component element = (recordedOf? e).toList := by
    simp only [Prod.mk.injEq] at hfilter
    rw [recordedAt, hfilter]
    cases hrecorded : recordedOf? e <;> simp [hrecorded]
  rw [(recordsCalls_of_ofSchema h).tones, at?_tones_recordAll, hat]
  cases recordedOf? e <;> rfl

theorem at?_tones_of_notMem (h : ofSchema s = .ok c)
    (hplace : ∀ e, (component, element, e) ∉ s.places) :
    Dict.at? c.tones component element = none := by
  have hat : recordedAt (callsOf s.places) component element = [] := by
    rw [recordedAt, List.filter_eq_nil_iff.2, List.filterMap_nil]
    intro call hcall heq
    obtain ⟨⟨component', element', e⟩, he, rfl⟩ := List.mem_map.1 hcall
    obtain ⟨rfl, rfl⟩ := of_decide_eq_true heq
    exact hplace e he
  rw [(recordsCalls_of_ofSchema h).tones, at?_tones_recordAll, hat]
  rfl

def bucket (c : Compiled) (component element palette role label : String) : List String :=
  Keys.labelled (((Dict.at? c.tree component element).bind (·.palettes)).getD []) palette role label

def tracks (c : Compiled) (component element palette role label : String) : List String :=
  Keys.trackKeys ((Dict.at? c.tones component element).getD []) palette role label

/-- The keys of an element's palettes are those of its colors, filed in the tree and by track. -/
theorem exists_filed (h : ofSchema s = .ok c) (hs : s.DistinctPlaces)
    (he : (component, element, e) ∈ s.places) : ∃ entry es,
      Dict.at? c.tree component element = some entry
        ∧ (e.palettes.getD []).colors.mapM AuthoredColor.emit = .ok es
        ∧ entry.palettes.getD [] = es.foldl Keys.fileByLabel []
        ∧ (Dict.at? c.tones component element).getD [] = es.foldl Keys.fileByTrack [] := by
  obtain ⟨entry, section?, hentry, hof⟩ := (ofSchema_faithful h).exists_entry hs he
  obtain ⟨es, hes, hkeys, htones⟩ := (sectionsOf hof).exists_colorKeys
  obtain rfl := recordedOf?_of_entryOf hof
  exact ⟨entry, es, hentry, hes, hkeys, by rw [at?_tones_of_mem h hs he, htones]⟩

/-- The tracks of a label hold the keys of the label, each as often. -/
theorem tracks_perm_bucket (h : ofSchema s = .ok c) (hs : s.DistinctPlaces)
    (component element palette role label : String) :
    (c.tracks component element palette role label).Perm
      (c.bucket component element palette role label) := by
  by_cases hplace : ∃ e, (component, element, e) ∈ s.places
  · obtain ⟨e, he⟩ := hplace
    obtain ⟨entry, es, hentry, -, hkeys, htones⟩ := exists_filed h hs he
    rw [tracks, bucket, htones, hentry, Option.bind_some, hkeys]
    exact Keys.trackKeys_perm es palette role label
  · have hnone : Dict.at? c.tree component element = none := by
      rw [Option.eq_none_iff_forall_ne_some]
      intro entry hentry
      obtain ⟨e, -, he, -⟩ := (ofSchema_faithful h).sound _ _ _ hentry
      exact hplace ⟨e, he⟩
    rw [tracks, bucket, hnone, at?_tones_of_notMem h fun e he => hplace ⟨e, he⟩]
    exact .refl _

/-- The number of palette keys is that of all entries. -/
theorem paletteKeyCount_eq (h : ofSchema s = .ok c) (hs : s.DistinctPlaces) :
    c.paletteKeyCount
      = (c.tree.entries.map fun (_, _, entry) => entry.paletteKeys.length).sum := by
  obtain ⟨entries, hentries, hperm⟩ := (ofSchema_faithful h).exists_entries hs
  have houtcomes : entries.map (fun n => Except.ok n.2.2)
      = s.places.map fun m => outcomeOf m.2.2 := by
    refine map_of_mapM_ok hentries fun m n hmn => ?_
    obtain ⟨-, -, section?, hof⟩ := entryAt_eq_ok.1 hmn
    rw [outcomeOf_of_entryOf hof]
  have hcalls : (callsOf s.places).map (fun call => outcomeOf call.spec)
      = entries.map fun n => Except.ok n.2.2 := by
    rw [houtcomes, callsOf, List.map_map]
    rfl
  have hentries' : (entries.map fun n => (Except.ok n.2.2 : Except CompileError Entry)).filterMap
      Except.toOption = entries.map fun n => n.2.2 := by
    rw [List.filterMap_map, ← List.filterMap_eq_map]
    rfl
  rw [(recordsCalls_of_ofSchema h).count, count_recordAll, hcalls, hentries', List.map_map]
  exact (hperm.map fun n => n.2.2.paletteKeys.length).sum_nat.symm

end Compiled
end AtomicCss

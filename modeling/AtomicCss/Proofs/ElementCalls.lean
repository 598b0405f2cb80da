import AtomicCss.Proofs.Filing
import AtomicCss.Proofs.PlainData
import Mathlib.Algebra.Ring.Nat
import Mathlib.Data.List.Induction

/-!
# Compiling elements one after the other

Calls that compile elements share what has been compiled. A call records the metadata of the
palettes before it comes to the effects, but the effects of plain data have keys, so a call either
succeeds or leaves no trace. What a call gives is a matter of its element alone, and the metadata at
a place is that of the last call there that had any.
-/
namespace AtomicCss.Compiled

structure Call where
  component : String
  element : String
  spec : Element

/-- Makes calls one after the other: what each gives, and what is compiled in the end. -/
def run (c : Compiled) : List Call → List (Except CompileError Entry) × Compiled
  | [] => ([], c)
  | call :: calls =>
    let (outcome, c) := c.step call.component call.element call.spec
    let (outcomes, c) := c.run calls
    (outcome :: outcomes, c)

/-- What an element alone gives: its entry, or the error that it has. -/
def outcomeOf (e : Element) : Except CompileError Entry := (entryOf e).map Prod.fst

/-- What an element has recorded of its palettes, unless they are empty or the element fails. -/
def recordedOf? (e : Element) : Option Keys.PaletteSection :=
  match outcomeOf e with
  | .ok _ => (filled (e.palettes.map Palettes.members)).bind fun p => (Keys.ofPalettes p).toOption
  | .error _ => none

def recordedAt (calls : List Call) (component element : String) : List Keys.PaletteSection :=
  (calls.filter fun call => call.component = component ∧ call.element = element).filterMap
    fun call => recordedOf? call.spec

variable {c : Compiled} {call : Call} {calls : List Call} {e : Element} {entry : Entry}
  {section? : Option Keys.PaletteSection}

theorem count_ofPalettes {palettes : Dict Document} {p : Keys.PaletteSection}
    (h : Keys.ofPalettes palettes = .ok p) : (Keys.allKeys p.keys).length = p.count := by
  simp only [Keys.ofPalettes, bind_eq_ok, pure_eq_ok] at h
  obtain ⟨es, -, rfl⟩ := h
  rw [(Keys.allKeys_foldl_perm es).length_eq, List.length_map]

namespace SectionsOf

theorem palettes_eq (h : SectionsOf e entry section?) : section?
    = (filled (e.palettes.map Palettes.members)).bind fun p => (Keys.ofPalettes p).toOption := by
  obtain ⟨hnone, rfl⟩ | ⟨members, p, hmembers, rfl, hof⟩ := mapM_option_eq_ok.1 h.palettes.1
  · rw [hnone, Option.bind_none]
  · rw [hmembers, Option.bind_some, hof]
    rfl

theorem length_paletteKeys (h : SectionsOf e entry section?) :
    entry.paletteKeys.length = (section?.map (·.count)).getD 0 := by
  have hkeys : entry.paletteKeys = Keys.allKeys ((section?.map (·.keys)).getD []) := by
    rw [Entry.paletteKeys, h.palettes.2]
    rfl
  rw [hkeys]
  obtain ⟨-, rfl⟩ | ⟨members, p, -, rfl, hof⟩ := mapM_option_eq_ok.1 h.palettes.1
  · rfl
  · exact count_ofPalettes hof

end SectionsOf

theorem outcomeOf_of_entryOf (h : entryOf e = .ok (entry, section?)) : outcomeOf e = .ok entry := by
  rw [outcomeOf, h]
  rfl

/-- What is compiled of an element's palettes is what the element has recorded. -/
theorem recordedOf?_of_entryOf (h : entryOf e = .ok (entry, section?)) :
    recordedOf? e = section? := by
  rw [recordedOf?, outcomeOf_of_entryOf h]
  exact (sectionsOf h).palettes_eq.symm

theorem recordedOf?_eq_none {error : CompileError} (h : outcomeOf e = .error error) :
    recordedOf? e = none := by
  rw [recordedOf?, h]

def recordAll (c : Compiled) (calls : List Call) : Compiled :=
  calls.foldl (fun c call => c.record call.component call.element (recordedOf? call.spec)) c

theorem recordAll_concat (calls : List Call) (call : Call) : c.recordAll (calls ++ [call])
    = (c.recordAll calls).record call.component call.element (recordedOf? call.spec) := by
  rw [recordAll, List.foldl_append]
  rfl

theorem recordedAt_concat (calls : List Call) (call : Call) (component element : String) :
    recordedAt (calls ++ [call]) component element = recordedAt calls component element
      ++ if call.component = component ∧ call.element = element then
        (recordedOf? call.spec).toList else [] := by
  rw [recordedAt, List.filter_append, List.filterMap_append]
  congr 1
  by_cases h : call.component = component ∧ call.element = element
  · cases hrecorded : recordedOf? call.spec <;> simp [h, hrecorded]
  · simp [h]

/-- Recording replaces the metadata at the place of the call. -/
theorem at?_tones_record_self (c : Compiled) (component element : String)
    (section? : Option Keys.PaletteSection) :
    Dict.at? (c.record component element section?).tones component element
      = (section?.map (·.tones)).or (Dict.at? c.tones component element) := by
  cases section? with
  | none => rfl
  | some p => exact (Dict.at?_update_set c.tones _ _ _ _ p.tones).trans (if_pos ⟨rfl, rfl⟩)

theorem at?_tones_recordAll (calls : List Call) (component element : String) :
    Dict.at? (recordAll {} calls).tones component element
      = (recordedAt calls component element).getLast?.map (·.tones) := by
  induction calls using List.reverseRecOn with
  | nil => rfl
  | append_singleton calls call ih =>
    rw [recordAll_concat, recordedAt_concat]
    by_cases h : call.component = component ∧ call.element = element
    · obtain ⟨rfl, rfl⟩ := h
      rw [at?_tones_record_self, ih, if_pos ⟨rfl, rfl⟩]
      cases recordedOf? call.spec <;> simp
    · rw [at?_tones_record _ h, ih, if_neg h, List.append_nil]

theorem count_record (c : Compiled) (component element : String)
    (section? : Option Keys.PaletteSection) :
    (c.record component element section?).paletteKeyCount
      = c.paletteKeyCount + (section?.map (·.count)).getD 0 := by
  cases section? <;> rfl

theorem count_recordedOf? (e : Element) : ((recordedOf? e).map (·.count)).getD 0
    = ((outcomeOf e).toOption.map fun entry => entry.paletteKeys.length).getD 0 := by
  cases houtcome : outcomeOf e with
  | error error =>
    rw [recordedOf?_eq_none houtcome]
    rfl
  | ok entry =>
    obtain ⟨⟨entry, section?⟩, hentry, rfl⟩ := map_eq_ok.1 houtcome
    rw [recordedOf?_of_entryOf hentry]
    exact (sectionsOf hentry).length_paletteKeys.symm

theorem count_recordAll (calls : List Call) : (recordAll {} calls).paletteKeyCount
    = (((calls.map fun call => outcomeOf call.spec).filterMap Except.toOption).map
        fun e => e.paletteKeys.length).sum := by
  induction calls using List.reverseRecOn with
  | nil => rfl
  | append_singleton calls call ih =>
    rw [recordAll_concat, count_record, ih, count_recordedOf?, List.map_append,
      List.filterMap_append, List.map_append, List.sum_append]
    cases h : (outcomeOf call.spec).toOption <;> simp [h]

end AtomicCss.Compiled

import AtomicCss.Proofs.PaletteColors
import Mathlib.Data.List.Perm.Basic

/-!
# Filing keeps what is filed

Keys are filed under labels in the order in which they come, so the order in which they are found
again is another. But each is found as often as it has been filed.
-/
namespace AtomicCss

namespace Dict

variable {α β : Type}

/-- What a value takes in stands in the dictionary that has the value. -/
theorem flatMap_set_perm {g : α → List β} {d : Dict α} {k : String} {v : α} {items : List β}
    (h : (g v).Perm (((get? d k).map g).getD [] ++ items)) :
    ((set d k v).flatMap fun m => g m.2).Perm (d.flatMap (fun m => g m.2) ++ items) := by
  induction d with
  | nil => simpa [set] using h
  | cons m d ih =>
    obtain ⟨j, w⟩ := m
    rw [get?_cons] at h
    rw [set]
    by_cases hj : j = k
    · simp only [if_pos hj, Option.map_some, Option.getD_some, List.flatMap_cons] at h ⊢
      refine (h.append_right _).trans ?_
      simp only [List.append_assoc]
      exact List.perm_append_comm.append_left _
    · simp only [if_neg hj, List.flatMap_cons, List.append_assoc] at h ⊢
      exact (ih h).append_left _

theorem flatMap_update_perm {g : α → List β} (d : Dict α) (k : String) {f : Option α → α}
    {items : List β} (h : ∀ a?, (g (f a?)).Perm ((a?.map g).getD [] ++ items)) :
    ((update d k f).flatMap fun m => g m.2).Perm (d.flatMap (fun m => g m.2) ++ items) :=
  flatMap_set_perm (h _)

end Dict

/-- Among items that a function tells apart, one alone has its value. -/
theorem filter_eq_singleton {α β : Type} [DecidableEq β] {f : α → β} {l : List α}
    (h : (l.map f).Nodup) {a : α} (ha : a ∈ l) : l.filter (fun b => f b = f a) = [a] := by
  induction l with
  | nil => cases ha
  | cons b l ih =>
    rw [List.map_cons, List.nodup_cons] at h
    rw [List.filter_cons]
    rcases List.mem_cons.1 ha with rfl | ha
    · have hnone : l.filter (fun b => f b = f a) = [] := by
        refine List.filter_eq_nil_iff.2 fun b hb heq => h.1 ?_
        rw [← of_decide_eq_true heq]
        exact List.mem_map_of_mem hb
      rw [if_pos (by simp), hnone]
    · have hne : f b ≠ f a := fun heq => h.1 (heq ▸ List.mem_map_of_mem ha)
      rw [if_neg (by simpa using hne), ih h.2 ha]

/-- If each step takes in the items of what is filed, then a run takes in those of all. -/
theorem foldl_file_perm {α β μ : Type} (look : μ → List β) {file : μ → α → μ}
    {itemsOf : α → List β} (step : ∀ m a, (look (file m a)).Perm (look m ++ itemsOf a))
    (l : List α) (m : μ) : (look (l.foldl file m)).Perm (look m ++ l.flatMap itemsOf) := by
  induction l generalizing m with
  | nil => simp
  | cons a l ih =>
    rw [List.foldl_cons, List.flatMap_cons, ← List.append_assoc]
    exact (ih _).trans ((step m a).append_right _)

namespace Entry

theorem bucketKeys_eq (b : Option Buckets) : bucketKeys b = (b.getD []).flatMap (·.2) := by
  rw [bucketKeys, List.flatMap_def]

theorem bucketKeys_append_perm (b : Buckets) (label : String) (keys : List String) :
    (bucketKeys (some (b.append label keys))).Perm (bucketKeys (some b) ++ keys) := by
  simp only [bucketKeys_eq, Option.getD_some]
  refine Dict.flatMap_update_perm (g := id) b label fun a? => ?_
  cases a? <;> simp

/-- Buckets that are not kept when they are empty have the same keys. -/
theorem bucketKeys_filter (b : Option Buckets) :
    bucketKeys (b.filter fun b => !b.isEmpty) = bucketKeys b := by
  cases b with
  | none => rfl
  | some b => cases b <;> rfl

end Entry

namespace Keys

theorem bucketKeys_file_perm (keys : List (String × String)) :
    (Entry.bucketKeys (some (file keys []))).Perm (keys.map (·.2)) := by
  have hstep : ∀ (b : Buckets) (k : String × String),
      (Entry.bucketKeys (some (b.append k.1 [k.2]))).Perm (Entry.bucketKeys (some b) ++ [k.2]) :=
    fun b k => Entry.bucketKeys_append_perm b k.1 [k.2]
  rw [List.map_eq_flatMap]
  simpa [file, Entry.bucketKeys] using
    foldl_file_perm (fun b => Entry.bucketKeys (some b)) hstep keys []

/-- Filing keys appends them one by one. -/
theorem file_eq_foldl (keys : List (String × String)) : file keys []
    = (keys.map fun m => (m.1, [m.2])).foldl (fun b (label, keys) => Dict.append b label keys)
      [] := by
  rw [List.foldl_map]
  rfl

/-- Keys under distinct labels are filed each under its own. -/
theorem get?_file {keys : List (String × String)} (h : (keys.map Prod.fst).Nodup)
    {label key : String} (hm : (label, key) ∈ keys) :
    Dict.get? (file keys []) label = some [key] := by
  have hgetD : Dict.getD (file keys []) label [] = [key] := by
    rw [file_eq_foldl, Dict.getD_foldl_append, List.filter_map, List.flatMap_map]
    have honly := filter_eq_singleton h hm
    dsimp only at honly
    simp only [Function.comp_def, honly]
    rfl
  rw [Dict.getD] at hgetD
  cases hget : Dict.get? (file keys []) label with
  | none => simp [hget] at hgetD
  | some found => rw [← hgetD, hget, Option.getD_some]

theorem keys_file (keys : List (String × String)) : (Dict.keys (file keys [])).Nodup
    ∧ ∀ label, label ∈ Dict.keys (file keys []) ↔ label ∈ keys.map Prod.fst := by
  rw [file_eq_foldl]
  refine ⟨Dict.nodup_keys_foldl_append _ List.nodup_nil, fun label => ?_⟩
  rw [Dict.mem_keys_foldl_append]
  simp [Dict.keys]

theorem bucketKeys_foldl_append_perm (filed : Buckets) :
    (Entry.bucketKeys (some (filed.foldl (fun b (label, keys) => b.append label keys) []))).Perm
      (Entry.bucketKeys (some filed)) := by
  have hstep : ∀ (b : Buckets) (m : String × List String),
      (Entry.bucketKeys (some (b.append m.1 m.2))).Perm (Entry.bucketKeys (some b) ++ m.2) :=
    fun b m => Entry.bucketKeys_append_perm b m.1 m.2
  simpa [Entry.bucketKeys, List.flatMap_def] using
    foldl_file_perm (fun b => Entry.bucketKeys (some b)) hstep filed []

def allKeys (m : PaletteKeys) : List String :=
  m.flatMap fun (_, roles) => roles.flatMap fun (_, labels) => Entry.bucketKeys (some labels)

/-- The keys of palettes are those of the emissions filed. -/
theorem allKeys_foldl_perm (es : List Emission) :
    (allKeys (es.foldl fileByLabel [])).Perm (es.map (·.key)) := by
  have hstep : ∀ (m : PaletteKeys) (e : Emission),
      (allKeys (fileByLabel m e)).Perm (allKeys m ++ [e.key]) := by
    intro m e
    refine Dict.flatMap_update_perm
      (g := fun roles : Dict Buckets => roles.flatMap fun r => Entry.bucketKeys (some r.2))
      m e.palette fun roles => ?_
    have hroles : ((roles.map fun roles : Dict Buckets =>
        roles.flatMap fun r => Entry.bucketKeys (some r.2)).getD [])
          = (roles.getD []).flatMap fun r => Entry.bucketKeys (some r.2) := by
      cases roles <;> rfl
    rw [hroles]
    refine Dict.flatMap_update_perm (g := fun labels => Entry.bucketKeys (some labels))
      (roles.getD []) e.role fun labels => ?_
    have hlabels : (labels.map fun labels => Entry.bucketKeys (some labels)).getD []
        = Entry.bucketKeys (some (labels.getD [])) := by
      cases labels <;> rfl
    rw [hlabels]
    exact Entry.bucketKeys_append_perm _ _ _
  simpa [allKeys, ← List.map_eq_flatMap] using foldl_file_perm allKeys hstep es []

theorem mem_keys_foldl_fileByLabel {es : List Emission} {palette : String} :
    palette ∈ Dict.keys (es.foldl fileByLabel []) ↔ ∃ e ∈ es, e.palette = palette := by
  suffices h : ∀ m : PaletteKeys, palette ∈ Dict.keys (es.foldl fileByLabel m)
      ↔ palette ∈ Dict.keys m ∨ ∃ e ∈ es, e.palette = palette by
    simpa [Dict.keys] using h []
  induction es with
  | nil => simp
  | cons e es ih =>
    intro m
    have hset : palette ∈ Dict.keys (fileByLabel m e)
        ↔ palette = e.palette ∨ palette ∈ Dict.keys m :=
      Dict.mem_keys_set
    rw [List.foldl_cons, ih, hset]
    simp only [List.mem_cons, or_and_right, exists_or, exists_eq_left]
    rw [eq_comm, or_assoc, or_left_comm]

end Keys

namespace Compiled.SectionsOf

variable {e : Element} {entry : Entry} {section? : Option Keys.PaletteSection}

theorem exists_scaleKeys (h : SectionsOf e entry section?) : ∃ parts,
    (e.scales.getD []).mapM (fun m => Keys.responsive m.1.name {} m.2.toValue) = .ok parts
      ∧ (Entry.bucketKeys entry.scales).Perm (parts.flatten.map (·.2)) := by
  obtain ⟨hnone, hempty⟩ | ⟨scales, b, hscales, hb, hof⟩ := Entry.scales_cases h
  · have hscales : e.scales.getD [] = [] := by
      cases hscales : e.scales with
      | none => rfl
      | some scales => exact hempty scales hscales
    exact ⟨[], by rw [hscales]; rfl, by rw [hnone]; exact .refl _⟩
  · simp only [Keys.ofScales, Scales.members, bind_eq_ok, pure_eq_ok, mapM_map_ok] at hof
    obtain ⟨parts, hparts, rfl⟩ := hof
    rw [hscales, hb]
    exact ⟨parts, hparts, Keys.bucketKeys_file_perm _⟩

/-- The effects of an element as they are compiled. -/
def effectMembers (e : Element) : Dict Value :=
  (e.effects.map fun x => x.membersWith Document.numeralsOnly).getD []

theorem exists_effectKeys (h : SectionsOf e entry section?) : ∃ shadow radius,
    Keys.ofPart (effectMembers e) "shadow" Keys.ofShadow = .ok shadow
      ∧ Keys.ofPart (effectMembers e) "borderRadius" Keys.ofBorderRadius = .ok radius
      ∧ (Entry.bucketKeys entry.effects).Perm
        (Entry.bucketKeys (some shadow) ++ Entry.bucketKeys (some radius)) := by
  obtain ⟨effects, buckets, heffects, hbuckets, hentry⟩ := h.effects
  have hmembers : effects.getD [] = effectMembers e := by
    obtain ⟨hnone, rfl⟩ | ⟨x, members, hx, rfl, hmembers⟩ := mapM_option_eq_ok.1 heffects
    · rw [effectMembers, hnone]
      rfl
    · rw [Effects.members] at hmembers
      split at hmembers
      · cases hmembers
      · rw [effectMembers, hx, ← Except.ok.inj hmembers]
        rfl
  rw [← hmembers, hentry, Entry.bucketKeys_filter]
  obtain ⟨hfilled, rfl⟩ | ⟨members, b, hfilled, rfl, hof⟩ := mapM_option_eq_ok.1 hbuckets
  · have hempty : effects.getD [] = [] := by
      cases effects with
      | none => rfl
      | some members => simpa [filled] using hfilled
    rw [hempty]
    exact ⟨[], [], rfl, rfl, .refl _⟩
  · rw [filled_eq_some hfilled, Option.getD_some]
    simp only [Keys.ofEffects, bind_eq_ok, pure_eq_ok] at hof
    obtain ⟨shadow, hshadow, radius, hradius, rfl⟩ := hof
    refine ⟨shadow, radius, hshadow, hradius, ?_⟩
    simpa [Entry.bucketKeys] using Keys.bucketKeys_foldl_append_perm (shadow ++ radius)

end Compiled.SectionsOf
end AtomicCss

import AtomicCss.Proofs.Build

/-!
# The output files of a build

A build has four fixed outputs and two for each palette, and writes them as files by name. The name
of a palette is part of the names of its files. All names differ unless a palette is named `core`:
its class map then takes the place of the core class map.
-/
namespace AtomicCss.Build

/-- Every output is a file of its own: no two have one name, and each has its text. -/
structure KeepsOutputs (b : Build) : Prop where
  names : (b.outputs.map (·.1)).Nodup
  files : b.files = b.outputs
  core : b.files.get? "core.css" = some b.sheets.core
  effects : b.files.get? "effects.css" = some b.sheets.effects
  classMap : b.files.get? "class-map.json" = some (mapFile b.classMap)
  coreMap : b.files.get? "class-map.core.json" = some (mapFile b.splitMap.coreValue)
  sheet : ∀ palette ∈ b.compiled.tree.paletteNames, ∃ css,
    b.sheets.palettes.get? palette = some css ∧ b.files.get? (sheetName palette) = some css
  map : ∀ palette ∈ b.compiled.tree.paletteNames, ∃ v,
    b.splitMap.paletteValues.get? palette = some v
      ∧ b.files.get? (mapName palette) = some (mapFile v)

theorem sheetName_injective : Function.Injective sheetName := by
  intro p q h
  simpa [sheetName, ← String.toList_inj] using h

theorem mapName_injective : Function.Injective mapName := by
  intro p q h
  simpa [mapName, ← String.toList_inj] using h

theorem sheetName_ne_mapName (p q : String) : sheetName p ≠ mapName q := by
  simp [sheetName, mapName, ← String.toList_inj]

theorem mapName_ne_classMap (p : String) : mapName p ≠ "class-map.json" := by
  intro h
  have hlength := congrArg String.length h
  rw [mapName, String.length_append, String.length_append] at hlength
  have hfixed : "class-map.json".length < "class-map.".length + ".json".length := by decide
  omega

theorem mapName_eq_coreMap {p : String} : mapName p = "class-map.core.json" ↔ p = "core" := by
  constructor
  · exact fun h => mapName_injective (h.trans (by decide : _ = mapName "core"))
  · rintro rfl
    decide

def fixedNames : List String := ["core.css", "effects.css", "class-map.json", "class-map.core.json"]

theorem sheetName_notMem_fixed (p : String) : sheetName p ∉ fixedNames := by
  intro h
  have hfixed : ∀ name ∈ fixedNames, name.toList.head? ≠ some 'p' := by decide
  exact hfixed _ h (by simp [sheetName])

theorem mapName_mem_fixed {p : String} : mapName p ∈ fixedNames ↔ p = "core" := by
  have hcss : mapName p ≠ "core.css" ∧ mapName p ≠ "effects.css" := by
    simp [mapName, ← String.toList_inj]
  simp [fixedNames, hcss, mapName_ne_classMap, mapName_eq_coreMap]

variable {s : Schema} {o : BuildOptions} {b : Build}

theorem names_outputs (b : Build) :
    b.outputs.map (·.1) = fixedNames ++ (Dict.keys b.sheets.palettes).map sheetName
      ++ (Dict.keys b.splitMap.paletteValues).map mapName := by
  simp [outputs, fixedNames, Dict.keys, Function.comp_def]

theorem nodup_names_iff (h : b.MadeFrom s o) :
    (b.outputs.map (·.1)).Nodup ↔ "core" ∉ b.compiled.tree.paletteNames := by
  have hsheets : ((Dict.keys b.sheets.palettes).map sheetName).Nodup :=
    h.nodup_palettes.map sheetName_injective
  have hmaps : ((Dict.keys b.splitMap.paletteValues).map mapName).Nodup :=
    h.nodup_paletteValues.map mapName_injective
  have hfixed : fixedNames.Nodup := by decide
  rw [names_outputs, List.nodup_append, List.nodup_append]
  simp only [hsheets, hmaps, hfixed, true_and, List.mem_append, List.mem_map]
  constructor
  · rintro ⟨-, hne⟩ hcore
    exact hne "class-map.core.json" (.inl (by decide)) _
      ⟨"core", h.mem_paletteValues.2 hcore, rfl⟩ (by decide)
  · intro hcore
    refine ⟨?_, ?_⟩
    · rintro _ hf _ ⟨palette, -, rfl⟩ rfl
      exact sheetName_notMem_fixed palette hf
    · rintro _ (hf | ⟨p, -, rfl⟩) _ ⟨palette, hp, rfl⟩ heq
      · rw [heq, mapName_mem_fixed] at hf
        exact hcore (hf ▸ h.mem_paletteValues.1 hp)
      · exact sheetName_ne_mapName p palette heq

/-- With a palette named `core`, the file of the core class map holds the map of that palette. -/
theorem coreMap_replaced (h : b.MadeFrom s o) (hcore : "core" ∈ b.compiled.tree.paletteNames) :
    ∃ v, b.splitMap.paletteValues.get? "core" = some v
      ∧ b.files.get? "class-map.core.json" = some (mapFile v) := by
  obtain ⟨v, hv⟩ := Option.isSome_iff_exists.1 (Dict.mem_keys_iff.1 (h.mem_paletteValues.2 hcore))
  refine ⟨v, hv, ?_⟩
  let maps := b.splitMap.paletteValues.map fun p => (mapName p.1, mapFile p.2)
  have hnodup : (Dict.keys maps.reverse).Nodup := by
    have hkeys : Dict.keys maps.reverse
        = ((Dict.keys b.splitMap.paletteValues).map mapName).reverse := by
      simp [maps, Dict.keys, Function.comp_def]
    rw [hkeys, List.nodup_reverse]
    exact h.nodup_paletteValues.map mapName_injective
  have hmem : (mapName "core", mapFile v) ∈ maps.reverse :=
    List.mem_reverse.2 (List.mem_map.2 ⟨_, Dict.mem_of_get? hv, rfl⟩)
  -- The palettes' maps come last, so what they say of a name stands.
  have hlast : b.files.get? (mapName "core") = some (mapFile v) := by
    rw [files, Dict.ofList, Dict.get?_merge, outputs, List.reverse_append,
      Dict.get?_list_append, Dict.get?_of_mem hnodup hmem]
    rfl
  exact hlast

theorem keepsOutputs_of_notMem (h : b.MadeFrom s o)
    (hcore : "core" ∉ b.compiled.tree.paletteNames) : b.KeepsOutputs := by
  have hnodup := (nodup_names_iff h).2 hcore
  have hfiles : b.files = b.outputs := Dict.ofList_of_nodup hnodup
  have hget : ∀ name text, (name, text) ∈ b.outputs → b.files.get? name = some text := by
    intro name text hm
    rw [hfiles]
    exact Dict.get?_of_mem hnodup hm
  refine ⟨hnodup, hfiles, hget _ _ ?core, hget _ _ ?effects, hget _ _ ?classMap,
    hget _ _ ?coreMap, ?sheet, ?map⟩
  case sheet =>
    intro palette hp
    obtain ⟨css, hcss⟩ :=
      Option.isSome_iff_exists.1 (Dict.mem_keys_iff.1 (h.mem_palettes.2 hp))
    refine ⟨css, hcss, hget _ _ ?_⟩
    simp only [outputs, List.mem_append, List.mem_map]
    exact .inl (.inr ⟨_, Dict.mem_of_get? hcss, rfl⟩)
  case map =>
    intro palette hp
    obtain ⟨v, hv⟩ :=
      Option.isSome_iff_exists.1 (Dict.mem_keys_iff.1 (h.mem_paletteValues.2 hp))
    refine ⟨v, hv, hget _ _ ?_⟩
    simp only [outputs, List.mem_append, List.mem_map]
    exact .inr ⟨_, Dict.mem_of_get? hv, rfl⟩
  all_goals simp [outputs]

/-- A build keeps all its outputs exactly if no palette is named `core`. -/
theorem keepsOutputs_iff (h : ofSchema s o = .ok b) :
    b.KeepsOutputs ↔ "core" ∉ b.compiled.tree.paletteNames :=
  ⟨fun hb => (nodup_names_iff (madeFrom h)).1 hb.names, keepsOutputs_of_notMem (madeFrom h)⟩

/-- A schema of one element whose box is black in a palette of the given name. -/
def blackBox (palette : String) : Schema :=
  let black : Document := .list ([0, 0, 0, 1].map fun n => .scalar (.number n))
  let soft : Document := .map [(.text "soft", .map [(.text "rest", black)])]
  .ofElements [("box", ⟨none, none, some [(palette, [(.boxColor, [("primary", soft)])])], none⟩)]

theorem blackBox_brand_keeps : ∃ b, ofSchema (blackBox "brand") {} = .ok b ∧ b.KeepsOutputs := by
  have hb : ((ofSchema (blackBox "brand") {}).toOption.map fun b => b.compiled.tree.paletteNames)
      = some ["brand"] := by decide +kernel
  obtain ⟨b, hb, hnames⟩ := exists_of_toOption_map hb
  refine ⟨b, hb, (keepsOutputs_iff hb).2 ?_⟩
  rw [hnames]
  decide

/-- A palette named `core` costs the core class map its file. -/
theorem blackBox_core_loses : ∃ b, ofSchema (blackBox "core") {} = .ok b ∧ ¬b.KeepsOutputs := by
  have hb : ((ofSchema (blackBox "core") {}).toOption.map fun b => b.compiled.tree.paletteNames)
      = some ["core"] := by decide +kernel
  obtain ⟨b, hb, hnames⟩ := exists_of_toOption_map hb
  refine ⟨b, hb, fun hkeeps => (nodup_names_iff (madeFrom hb)).1 hkeeps.names ?_⟩
  rw [hnames]
  decide

end AtomicCss.Build

import AtomicCss.Build
import AtomicCss.Proofs.Bundles
import AtomicCss.Proofs.ClassMap

/-!
# What a build is made of

Each part of a build is a function of the compiled schema and the class names.
-/
namespace AtomicCss

namespace Build

structure MadeFrom (s : Schema) (o : BuildOptions) (b : Build) : Prop where
  compiled : Compiled.ofSchema s = .ok b.compiled
  usage : b.usage = Usage.ofTree b.compiled.tree
  names : b.names = Usage.classNames b.compiled.tree
  rules : BundleRules.ofTree (rulesOf s o) b.names b.compiled.tree = .ok b.rules
  sheets : b.sheets = .ofRules o.combineMedia b.rules
  classMap : b.classMap = ClassMap.project b.names b.compiled.tree.toValue
  splitMap : b.splitMap = ClassMap.split b.names b.compiled.tones b.compiled.tree

theorem madeFrom {s : Schema} {o : BuildOptions} {b : Build} (h : ofSchema s o = .ok b) :
    b.MadeFrom s o := by
  simp only [ofSchema, ofRules, bind_eq_ok, mapError_eq_ok, pure_eq_ok] at h
  obtain ⟨compiled, hc, rules, hr, rfl⟩ := h
  exact ⟨hc, rfl, rfl, hr, rfl, rfl, rfl⟩

namespace MadeFrom

variable {s : Schema} {o : BuildOptions} {b : Build}

theorem faithful (h : b.MadeFrom s o) : b.compiled.Faithful s.places :=
  Compiled.ofSchema_faithful h.compiled

theorem correct (h : b.MadeFrom s o) :
    b.rules.Correct (rulesOf s o) b.names b.compiled.tree :=
  BundleRules.ofTree_correct h.rules

theorem keys_palettes (h : b.MadeFrom s o) :
    Dict.keys b.sheets.palettes = Dict.keys b.rules.palettes := by
  rw [h.sheets]
  exact Dict.keys_mapValues _ _

theorem nodup_palettes (h : b.MadeFrom s o) : (Dict.keys b.sheets.palettes).Nodup := by
  rw [h.keys_palettes]
  exact h.correct.distinct

theorem mem_palettes (h : b.MadeFrom s o) {palette : String} :
    palette ∈ Dict.keys b.sheets.palettes ↔ palette ∈ b.compiled.tree.paletteNames := by
  rw [h.keys_palettes]
  exact h.correct.palettes palette

theorem keys_paletteValues (h : b.MadeFrom s o) : Dict.keys b.splitMap.paletteValues
    = Dict.keys (ClassMap.split b.names b.compiled.tones b.compiled.tree).palettes := by
  rw [← h.splitMap]
  exact Dict.keys_map (fun _ => _) _

theorem nodup_paletteValues (h : b.MadeFrom s o) :
    (Dict.keys b.splitMap.paletteValues).Nodup := by
  rw [h.keys_paletteValues]
  exact ClassMap.nodup_keys_split_palettes _ _ _

theorem mem_paletteValues (h : b.MadeFrom s o) {palette : String} :
    palette ∈ Dict.keys b.splitMap.paletteValues ↔ palette ∈ b.compiled.tree.paletteNames := by
  rw [h.keys_paletteValues]
  exact ClassMap.mem_keys_split_palettes

end MadeFrom
end Build

/-- A schema of one component and the standard breakpoints. -/
def Schema.ofElements (elements : Dict Element) : Schema :=
  { name := "sample", version := none, author := none, breakpoints := standardBreakpoints
    components := [("card", ⟨elements⟩)] }

end AtomicCss

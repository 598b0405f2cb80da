import AtomicCss.Proofs.SheetReading

/-!
# The order of states in a bundle

In the effects bundle and in the bundle of a palette the rules of later states come later, so that
they win: pressing after hovering, hovering after focus, and this after all others. The ranks are
read off the texts of the rules, but they are those of the states of the keys, and the rules can be
read back in their order from the text of the bundle, with folded media queries or without.
-/
namespace AtomicCss

namespace Stylesheet

/-- With precedence a rule stands before another exactly if its rank is the lesser. -/
theorem pair_sublist_ordered_iff {rules : List Rule} {r r' : Rule} (hr : r ∈ rules)
    (hr' : r' ∈ rules) (hne : r.text ≠ r'.text) :
    [r, r'].Sublist (ordered true rules) ↔ rank r < rank r' := by
  have hsorted : (ordered true rules).Pairwise fun a b => rank a ≤ rank b :=
    pairwise_mergeSort_rank stateOrder_iff rules.eraseDups
  exact pair_sublist_iff_rank_lt hsorted (mem_ordered.2 hr) (mem_ordered.2 hr')
    fun h => hne (Prod.mk.inj h).2

end Stylesheet

namespace Build

variable {s : Schema} {o : BuildOptions} {b : Build}

namespace MadeFrom

variable (h : b.MadeFrom s o)
include h

/-- A rule of a key in a sheet has the rank of the key's states. -/
theorem exists_decode_of_areStated {rules : List Rule} (hrules : AreStated s o b rules)
    {key : String} (hk : key ∈ b.compiled.tree.keys) {r : Rule}
    (hr : Stylesheet.ruleOf (rulesOf s o) b.names key = .ok r) (hmem : r ∈ rules) :
    ∃ d, StyleKey.decode key = .ok d ∧ Rule.precedence r.body = Rule.stateRank d.stateTokens := by
  obtain ⟨key', hk', hr', d, p, hd, -, _, _, _, hstates⟩ := hrules r hmem
  obtain rfl := h.names_inj hk' hk
    ((h.styledClass_ruleOf hk' hr').symm.trans (h.styledClass_ruleOf hk hr))
  exact ⟨d, hd, hstates.precedence_eq (h.isWord hk)⟩

end MadeFrom

/-- In the effects bundle and in those of palettes the rules of two keys stand in the order of the
ranks of the keys' states, and for equal ranks in the order of their texts. -/
theorem before_iff_stateRank (h : ofSchema s o = .ok b) {css : String}
    (hcss : css = b.sheets.effects ∨ ∃ palette, b.sheets.palettes.get? palette = some css)
    {key key' : String} (hk : key ∈ b.compiled.tree.keys) (hk' : key' ∈ b.compiled.tree.keys)
    (hne : key ≠ key') {r r' : Rule} (hr : Stylesheet.ruleOf (rulesOf s o) b.names key = .ok r)
    (hr' : Stylesheet.ruleOf (rulesOf s o) b.names key' = .ok r') (hmem : r ∈ Rule.rulesIn css)
    (hmem' : r' ∈ Rule.rulesIn css) :
    ∃ d d', StyleKey.decode key = .ok d ∧ StyleKey.decode key' = .ok d'
      ∧ ([r, r'].Sublist (Rule.rulesIn css)
        ↔ Rule.stateRank d.stateTokens < Rule.stateRank d'.stateTokens
          ∨ Rule.stateRank d.stateTokens = Rule.stateRank d'.stateTokens ∧ r.text < r'.text) := by
  replace h := madeFrom h
  obtain ⟨rules, hrules, hlegible, rfl⟩ : ∃ rules, AreStated s o b rules
      ∧ (∀ r ∈ rules, r.Legible) ∧ css = Stylesheet.text ⟨true, o.combineMedia⟩ rules := by
    rcases hcss with rfl | ⟨palette, hcss⟩
    · exact ⟨_, h.areStated_effects, h.legible_effects, by rw [h.sheets]; rfl⟩
    · rw [h.get?_palettes] at hcss
      obtain ⟨-, hcss⟩ := Option.ite_none_right_eq_some.1 hcss
      exact ⟨_, h.areStated_palette palette, h.legible_palette palette, (Option.some.inj hcss).symm⟩
  rw [h.rulesIn_of_areStated hrules] at hmem hmem' ⊢
  rw [Stylesheet.mem_ordered] at hmem hmem'
  obtain ⟨d, hd, hrank⟩ := h.exists_decode_of_areStated hrules hk hr hmem
  obtain ⟨d', hd', hrank'⟩ := h.exists_decode_of_areStated hrules hk' hr' hmem'
  have htext : r.text ≠ r'.text := by
    intro htext
    obtain rfl := Rule.text_inj (hlegible r hmem) (hlegible r' hmem') htext
    exact hne (h.names_inj hk hk'
      ((h.styledClass_ruleOf hk hr).symm.trans (h.styledClass_ruleOf hk' hr')))
  refine ⟨d, d', hd, hd', ?_⟩
  rw [Stylesheet.pair_sublist_ordered_iff hmem hmem' htext, Stylesheet.rank, Stylesheet.rank,
    Prod.Lex.toLex_lt_toLex, hrank, hrank']

/-- The color under hovering stands after the color at rest. -/
theorem rest_before_hover_fullBox : ∃ b css r r', ofSchema fullBox {} = .ok b
    ∧ b.sheets.palettes.get? "brand" = some css
    ∧ Stylesheet.ruleOf (rulesOf fullBox {}) b.names "boxColor__[0,0,0,1]" = .ok r
    ∧ Stylesheet.ruleOf (rulesOf fullBox {}) b.names "boxColor--hover__[0,0,0,1]" = .ok r'
    ∧ [r, r'].Sublist (Rule.rulesIn css) := by
  have hb : ((ofSchema fullBox {}).toOption.map fun b => b.compiled.tree.entries.map fun entry =>
      (entry.2.2.palettes.getD []).map fun p => (p.1, BundleRules.roleKeys p.2))
      = some [[("brand", ["boxColor__[0,0,0,1]", "boxColor--hover__[0,0,0,1]"])]] := by
    decide +kernel
  obtain ⟨b, hb, hentries⟩ := exists_of_toOption_map hb
  obtain ⟨⟨component, element, e⟩, hentries, hpalettes⟩ := List.map_eq_singleton_iff.1 hentries
  obtain ⟨⟨palette, roles⟩, hpalettes, hpalette⟩ := List.map_eq_singleton_iff.1 hpalettes
  obtain ⟨rfl, hroles⟩ := Prod.mk.inj hpalette
  have he : (component, element, e) ∈ b.compiled.tree.entries := by simp [hentries]
  have hrest : e.HasColor "brand" "boxColor__[0,0,0,1]" :=
    ⟨roles, by simp [hpalettes], by simp [hroles]⟩
  have hhover : e.HasColor "brand" "boxColor--hover__[0,0,0,1]" :=
    ⟨roles, by simp [hpalettes], by simp [hroles]⟩
  have h := madeFrom hb
  obtain ⟨css, r, hcss, hr, hmem⟩ := h.exists_mem_rulesIn he hrest
  obtain ⟨_, r', hcss', hr', hmem'⟩ := h.exists_mem_rulesIn he hhover
  obtain rfl := Option.some.inj (hcss.symm.trans hcss')
  obtain ⟨d, d', hd, hd', hbefore⟩ := before_iff_stateRank hb (.inr ⟨"brand", hcss⟩)
    (KeyTree.mem_keys_of_mem he hrest.mem_keys) (KeyTree.mem_keys_of_mem he hhover.mem_keys)
    (by decide) hr hr' hmem hmem'
  have hranks : (StyleKey.decode "boxColor__[0,0,0,1]").toOption.map (Rule.stateRank ·.stateTokens)
        = some 0
      ∧ (StyleKey.decode "boxColor--hover__[0,0,0,1]").toOption.map (Rule.stateRank ·.stateTokens)
        = some 2 := by
    decide +kernel
  rw [hd, hd'] at hranks
  have hrank : Rule.stateRank d.stateTokens = 0 := Option.some.inj hranks.1
  have hrank' : Rule.stateRank d'.stateTokens = 2 := Option.some.inj hranks.2
  exact ⟨b, css, r, r', hb, hcss, hr, hr', hbefore.2 (.inl (by omega))⟩

end Build
end AtomicCss

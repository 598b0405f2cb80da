import AtomicCss.Proofs.Families
import AtomicCss.Proofs.Order

/-!
# Sheets of the same rules

The rules of keys can be told apart by their texts, so the texts, or the precedence of states and
then the texts, put them in one order only. Sheets of the same rules are the same.
-/
namespace AtomicCss

namespace Rule

/-- A rule whose text shows whether it has a media query, and which. -/
structure Legible (r : Rule) : Prop where
  body : r.body.toList.head? ≠ some '@'
  media : ∀ query ∈ r.media, ∃ width, query = MediaQueries.atLeast width

theorem text_inj {r r' : Rule} (hr : r.Legible) (hr' : r'.Legible) (h : r.text = r'.text) :
    r = r' := by
  have hbody : ∀ (r : Rule) (query body : String), r.Legible →
      text ⟨body, some query⟩ ≠ r.body := by
    intro r query body hr htext
    apply hr.body
    rw [← htext]
    simp [text]
  obtain ⟨body, media⟩ := r
  obtain ⟨body', media'⟩ := r'
  cases media with
  | none =>
    cases media' with
    | none => rw [show body = body' from h]
    | some query' => exact absurd h.symm (hbody _ query' body' hr)
  | some query =>
    cases media' with
    | none => exact absurd h (hbody _ query body hr')
    | some query' =>
      obtain ⟨width, rfl⟩ := hr.media query rfl
      obtain ⟨width', rfl⟩ := hr'.media query' rfl
      have hsplit : ∀ (width : Int) (body : String),
          (text ⟨body, some (MediaQueries.atLeast width)⟩).toList = "@media ".toList
            ++ ((MediaQueries.atLeast width).toList ++ (" \x7b " ++ body ++ " \x7d").toList) := by
        intro width body
        simp [text]
      rw [← String.toList_inj, hsplit, hsplit, List.append_cancel_left_eq] at h
      -- Queries that differ would decide the order of the texts.
      by_cases hwidth : width = width'
      · subst hwidth
        rw [List.append_cancel_left_eq, String.toList_inj] at h
        simpa using h
      · have hlt := query_lt_iff hwidth (" \x7b " ++ body ++ " \x7d").toList
          (" \x7b " ++ body' ++ " \x7d").toList
        have hgt := query_lt_iff (Ne.symm hwidth) (" \x7b " ++ body' ++ " \x7d").toList
          (" \x7b " ++ body ++ " \x7d").toList
        rw [h] at hlt hgt
        simp only [lt_self_iff_false, false_iff, not_lt] at hlt hgt
        exact absurd (MediaQueries.atLeast_injective (le_antisymm hgt hlt)) hwidth

theorem exists_text_eq {className : String} {s : Selector} (h : s.IsFor className) :
    ∃ c rest, c ≠ '@' ∧ s.text.toList = c :: rest := by
  have hcompound : ∀ c : Compound, c ≠ [] →
      ∃ d rest, d ≠ '@' ∧ (Compound.text c).toList = d :: rest := by
    intro c hc
    obtain ⟨s, c, rfl⟩ := List.exists_cons_of_ne_nil hc
    cases s with
    | ofClass name =>
      refine ⟨'.', name.toList ++ (Compound.text c).toList, by decide, ?_⟩
      simp [Compound.text, SimpleSelector.text]
    | pseudo name =>
      refine ⟨':', name.toList ++ (Compound.text c).toList, by decide, ?_⟩
      simp [Compound.text, SimpleSelector.text]
  obtain ⟨⟨conditions, helement, -⟩, -⟩ := h
  rw [Selector.text]
  cases hancestor : s.ancestor with
  | none => exact hcompound s.element (by simp [helement])
  | some a =>
    cases a with
    | nil => exact ⟨' ', (Compound.text s.element).toList, by decide, by simp [Compound.text]⟩
    | cons c a =>
      obtain ⟨d, rest, hd, htext⟩ := hcompound (c :: a) (List.cons_ne_nil c a)
      refine ⟨d, rest ++ " ".toList ++ (Compound.text s.element).toList, hd, ?_⟩
      simp [htext]

theorem IsOn.head_body {className : String} {r : Rule} (h : r.IsOn className) :
    r.body.toList.head? ≠ some '@' := by
  obtain ⟨selectors, property, value, hbody, hne, hs⟩ := h
  obtain ⟨s, selectors, rfl⟩ := List.exists_cons_of_ne_nil hne
  obtain ⟨c, rest, hc, htext⟩ := exists_text_eq (hs s List.mem_cons_self)
  have hhead : ∃ rest, r.body.toList = s.text.toList ++ rest := by
    rw [hbody, bodyOf]
    cases selectors with
    | nil => simp
    | cons s' selectors =>
      simp only [List.map_cons, String.intercalate_cons_cons, String.toList_append,
        List.append_assoc]
      exact ⟨_, rfl⟩
  obtain ⟨rest, hrest⟩ := hhead
  rw [hrest, htext]
  simpa using hc

theorem media_of_mediaQuery {table : BreakpointTable} {breakpoint media : Option String}
    (h : mediaQuery table.queries breakpoint = .ok media) :
    ∀ query ∈ media, ∃ width, query = MediaQueries.atLeast width := by
  rcases mediaQuery_queries_eq_ok.1 h with ⟨-, rfl⟩ | ⟨_, width, -, -, -, rfl⟩
  · simp
  · rintro query ⟨⟩
    exact ⟨width, rfl⟩

theorem legible_ofColor {force : Bool} {key className : String} {r : Rule}
    (h : ofColor force key className = .ok r) : r.Legible where
  body := (isOn_ofColor h).head_body
  media := by
    obtain ⟨_, _, _, _, _, -, rfl⟩ := ofColor_ok h
    simp

theorem legible_ofKey {o : RuleOptions} {table : BreakpointTable} (ho : o.queries = table.queries)
    {key className : String} {r : Rule} (h : ofKey o key className = .ok r) : r.Legible where
  body := (isOn_ofKey h).head_body
  media := by
    apply ofKey_cases h
    · intro p h
      obtain ⟨_, rfl⟩ := ofDecoration_ok h
      simp
    · intro h
      obtain ⟨_, _, _, -, rfl⟩ := ofShadow_ok h
      simp
    · intro h
      obtain ⟨_, _, _, _, -, -, -, -, -, hmedia, -⟩ := ofRadius_ok h
      exact media_of_mediaQuery (ho ▸ hmedia)
    · intro h
      obtain ⟨_, _, _, _, -, -, -, -, -, hmedia, -⟩ := ofScale_ok h
      exact media_of_mediaQuery (ho ▸ hmedia)
    · intro h
      exact (legible_ofColor h).media

end Rule

namespace Stylesheet

/-- The place of a rule in a sheet that is ordered by precedence. -/
def rank (r : Rule) : Nat ×ₗ String := toLex (Rule.precedence r.body, r.text)

theorem stateOrder_iff (a b : Rule) : stateOrder a b = true ↔ rank a ≤ rank b := by
  rw [rank, rank, Prod.Lex.toLex_le_toLex]
  by_cases h : Rule.precedence a.body = Rule.precedence b.body
  · simp [stateOrder, textOrder, h]
  · simp [stateOrder, h]

/-- Sheets of the same rules have them in the same order. -/
theorem ordered_eq {byPrecedence : Bool} {rules rules' : List Rule}
    (h : ∀ r, r ∈ rules ↔ r ∈ rules') (hlegible : ∀ r ∈ rules, r.Legible) :
    ordered byPrecedence rules = ordered byPrecedence rules' := by
  have hperm : rules.eraseDups.Perm rules'.eraseDups := by
    apply (List.perm_ext_iff_of_nodup (nodup_eraseDups rules) (nodup_eraseDups rules')).2
    intro r
    rw [List.mem_eraseDups, List.mem_eraseDups, h]
  have hinj : ∀ a ∈ rules.eraseDups, ∀ b ∈ rules.eraseDups, a.text = b.text → a = b :=
    fun a ha b hb => Rule.text_inj (hlegible a (List.mem_eraseDups.1 ha))
      (hlegible b (List.mem_eraseDups.1 hb))
  cases byPrecedence with
  | true =>
    refine mergeSort_eq_of_perm stateOrder_iff (fun a ha b hb hab => ?_) hperm
    exact hinj a ha b hb (Prod.mk.inj hab).2
  | false => exact mergeSort_eq_of_perm textOrder_iff hinj hperm

theorem text_eq {o : SheetOptions} {rules rules' : List Rule}
    (h : ∀ r, r ∈ rules ↔ r ∈ rules') (hlegible : ∀ r ∈ rules, r.Legible) :
    text o rules = text o rules' := by
  rw [text, text, ordered_eq h hlegible]

end Stylesheet
end AtomicCss

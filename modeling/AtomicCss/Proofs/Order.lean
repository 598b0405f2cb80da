import AtomicCss.Proofs.Naming
import AtomicCss.Proofs.Sheets
import AtomicCss.Proofs.Text
import Mathlib.Data.Prod.Lex
import Mathlib.Order.WithBot
import Std.Data.String.ToInt

/-!
# How rules on bare classes are ordered

Of two rules on bare classes, one without a media query comes before one with a query, a query of
lesser text before one of greater text, and under the same query the class decides. Queries compare
as texts, whatever widths they stand for.
-/
namespace AtomicCss

namespace Number

theorem intText_eq_repr (n : Int) : intText n = Int.repr n := by
  cases n with
  | ofNat n => rfl
  | negSucc n =>
    rw [intText, if_pos (Int.negSucc_lt_zero n)]
    rfl

theorem intText_injective : Function.Injective intText := by
  intro m n h
  rw [intText_eq_repr, intText_eq_repr] at h
  exact Int.repr_injective h

theorem toList_intText (n : Int) : (intText n).toList
    = (if n < 0 then ['-'] else []) ++ Nat.toDigits 10 n.natAbs := by
  rw [intText, Decimal.digits]
  split <;> simp [Nat.toList_repr]

theorem notMem_intText {c : Char} (hdigit : c.isDigit = false) (hminus : c ≠ '-') (k : Int) :
    c ∉ (intText k).toList := by
  intro hc
  rw [toList_intText, List.mem_append] at hc
  rcases hc with hc | hc
  · split at hc
    · exact hminus (List.mem_singleton.1 hc)
    · cases hc
  · rw [Nat.isDigit_of_mem_toDigits (by decide) (by decide) hc] at hdigit
    cases hdigit

end Number

namespace MediaQueries

def atLeast (width : Int) : String := fromWidth (Number.intText width)

theorem atLeast_injective : Function.Injective atLeast := by
  intro m n h
  exact Number.intText_injective (by simpa [atLeast, fromWidth, ← String.toList_inj] using h)

/-- A query ends with its first closing bracket. -/
theorem exists_atLeast_eq (width : Int) :
    ∃ front, ')' ∉ front ∧ (atLeast width).toList = front ++ [')'] := by
  refine ⟨"(min-width: ".toList ++ (Number.intText width).toList ++ "px".toList, ?_, ?_⟩
  · simpa using Number.notMem_intText (c := ')') rfl (by decide) width
  · simp [atLeast, fromWidth]

/-- A query has neither a line break nor a brace. -/
theorem notMem_atLeast (width : Int) :
    '\n' ∉ (atLeast width).toList ∧ '\x7b' ∉ (atLeast width).toList := by
  have hline := Number.notMem_intText (c := '\n') rfl (by decide) width
  have hbrace := Number.notMem_intText (c := '\x7b') rfl (by decide) width
  simp [atLeast, fromWidth, hline, hbrace]

end MediaQueries

theorem BreakpointTable.get?_queries (t : BreakpointTable) (token : String) :
    t.queries.get? token
      = (t.get? token).map fun width => (Number.intText? width).map MediaQueries.fromWidth :=
  Dict.get?_map (fun _ width => (Number.intText? width).map MediaQueries.fromWidth) t token

namespace Rule

/-- The media query of a breakpoint is that of its width, if there is one and it can be written. -/
theorem mediaQuery_queries_eq_ok {t : BreakpointTable} {breakpoint media : Option String} :
    mediaQuery t.queries breakpoint = .ok media
      ↔ (Location.known breakpoint = none ∧ media = none)
        ∨ ∃ token width, Location.known breakpoint = some token ∧ t.get? token = some width
          ∧ Numeral.IsShort width ∧ media = some (MediaQueries.atLeast width) := by
  rw [mediaQuery]
  cases Location.known breakpoint with
  | none => simp [eq_comm]
  | some token =>
    simp only [t.get?_queries]
    cases hwidth : t.get? token with
    | none => simp [hwidth]
    | some width =>
      by_cases hshort : Numeral.IsShort width <;>
        simp [hwidth, hshort, Number.intText?, MediaQueries.atLeast, eq_comm]

end Rule

namespace Rule

/-- The media query of viewports from a width on, none if the rule holds for all. -/
def mediaFrom (width : WithBot Int) : Option String :=
  width.recBotCoe none fun n => some (MediaQueries.atLeast n)

/-- The place of a rule on a bare class in the order of texts: by the query, and then by the
class. -/
def rank (width : WithBot Int) (className : String) : WithBot String ×ₗ String :=
  toLex (width.map MediaQueries.atLeast, className)

theorem rank_bot_lt_rank_bot {c c' : String} : rank ⊥ c < rank ⊥ c' ↔ c < c' := by
  rw [rank, rank, Prod.Lex.toLex_lt_toLex]
  simp only [lt_self_iff_false, false_or, true_and]

theorem toList_bodyOf_bare (c property value : String) : (bodyOf (bare c) property value).toList
    = '.' :: (c.toList ++ ' ' :: ("\x7b ".toList ++ property.toList ++ ": ".toList ++ value.toList
      ++ " \x7d".toList)) := by
  simp [bodyOf, bare, Selector.text, Compound.text, SimpleSelector.text]

theorem bodyOf_inj {selectors : List Selector} {property value value' : String}
    (h : bodyOf selectors property value = bodyOf selectors property value') : value = value' := by
  rw [← String.toList_inj] at h
  simpa [bodyOf, String.toList_inj] using h

/-- Classes decide between bodies on bare classes. -/
theorem body_lt_iff {c c' : String} (hc : ClassName.IsWord c.toList)
    (hc' : ClassName.IsWord c'.toList) (hne : c ≠ c') (property property' value value' : String)
    (r r' : List Char) :
    (bodyOf (bare c) property value).toList ++ r < (bodyOf (bare c') property' value').toList ++ r'
      ↔ c < c' := by
  have hspace : ∀ c : String, ClassName.IsWord c.toList → ∀ x ∈ c.toList, ' ' < x :=
    fun c hc x hx => lt_of_lt_of_le (by decide) (hc.2 x hx).1
  have hnot : ∀ c : String, ClassName.IsWord c.toList → ' ' ∉ c.toList :=
    fun c hc hm => lt_irrefl ' ' (hspace c hc ' ' hm)
  have hcut := append_mark_lt_iff (hnot c hc) (hnot c' hc') fun h => hne (String.toList_inj.1 h)
  rw [toList_bodyOf_bare, toList_bodyOf_bare, List.cons_append, List.cons_append,
    List.cons_lt_cons_iff, List.append_assoc c.toList, List.append_assoc c'.toList,
    List.cons_append, List.cons_append, hcut,
    append_mark_lt_append_mark (hspace c hc) (hspace c' hc'), String.lt_iff_toList_lt]
  simp only [lt_self_iff_false, false_or, true_and]

/-- Queries that differ decide between texts that begin with them. -/
theorem query_lt_iff {m n : Int} (hne : m ≠ n) (r r' : List Char) :
    (MediaQueries.atLeast m).toList ++ r < (MediaQueries.atLeast n).toList ++ r'
      ↔ MediaQueries.atLeast m < MediaQueries.atLeast n := by
  obtain ⟨front, hfront, hm⟩ := MediaQueries.exists_atLeast_eq m
  obtain ⟨front', hfront', hn⟩ := MediaQueries.exists_atLeast_eq n
  have hfronts : front ≠ front' := by
    rintro rfl
    exact hne (MediaQueries.atLeast_injective (String.toList_inj.1 (hm.trans hn.symm)))
  rw [String.lt_iff_toList_lt, hm, hn, List.append_assoc, List.append_assoc, List.singleton_append,
    List.singleton_append, append_mark_lt_iff hfront hfront' hfronts]

/-- Rules on bare classes are ordered by their ranks. -/
theorem text_lt_text_iff {c c' : String} (hc : ClassName.IsWord c.toList)
    (hc' : ClassName.IsWord c'.toList) (hne : c ≠ c') (width width' : WithBot Int)
    (property property' value value' : String) :
    text ⟨bodyOf (bare c) property value, mediaFrom width⟩
        < text ⟨bodyOf (bare c') property' value', mediaFrom width'⟩
      ↔ rank width c < rank width' c' := by
  have hbody := body_lt_iff hc hc' hne property property' value value'
  have hmedia : ∀ (n : Int) (body : String), (text ⟨body, mediaFrom n⟩).toList
      = "@media ".toList ++ ((MediaQueries.atLeast n).toList ++ (" \x7b ".toList
        ++ (body.toList ++ " \x7d".toList))) := by
    intro n body
    simp [text, mediaFrom]
  -- The point of a class is before the mark of a query.
  have hpoint : ∀ (n : Int) (c property value body : String),
      (text ⟨bodyOf (bare c) property value, mediaFrom ⊥⟩).toList
        < (text ⟨body, mediaFrom n⟩).toList := by
    intro n c property value body
    rw [text, mediaFrom, WithBot.recBotCoe_bot, toList_bodyOf_bare, hmedia]
    exact List.Lex.rel (by decide)
  rw [rank, rank, Prod.Lex.toLex_lt_toLex, String.lt_iff_toList_lt]
  induction width with
  | bot =>
    induction width' with
    | bot =>
      have hbody := hbody [] []
      rw [List.append_nil, List.append_nil] at hbody
      exact hbody.trans (by simp only [lt_self_iff_false, false_or, true_and])
    | coe n => exact iff_of_true (hpoint n c _ _ _) (.inl (WithBot.bot_lt_coe _))
  | coe m =>
    induction width' with
    | bot =>
      refine iff_of_false (lt_asymm (hpoint m c' _ _ _)) ?_
      rintro (h | ⟨h, -⟩)
      · exact absurd h not_lt_bot
      · exact absurd h WithBot.coe_ne_bot
    | coe n =>
      rw [hmedia, hmedia, append_lt_append_iff]
      simp only [WithBot.map_coe, WithBot.coe_lt_coe, WithBot.coe_inj]
      by_cases hmn : m = n
      · subst hmn
        rw [append_lt_append_iff, append_lt_append_iff, hbody]
        simp only [lt_self_iff_false, false_or, true_and]
      · have hquery : MediaQueries.atLeast m ≠ MediaQueries.atLeast n :=
          fun h => hmn (MediaQueries.atLeast_injective h)
        rw [query_lt_iff hmn]
        simp only [hquery, false_and, or_false]

end Rule
end AtomicCss

import AtomicCss.Css.Stylesheet
import AtomicCss.Proofs.Styled
import Mathlib.Data.List.Nodup
import Mathlib.Data.String.Basic

/-!
# The rules of a sheet

A sheet has each of its rules once. Without precedence they stand in the order of their texts,
whether or not rules under one media query are folded together.
-/
namespace AtomicCss

theorem nodup_eraseDups {α : Type} [BEq α] [LawfulBEq α] : ∀ l : List α, l.eraseDups.Nodup
  | [] => by simp
  | a :: l => by
    rw [List.eraseDups_cons, List.nodup_cons, List.mem_eraseDups, List.mem_filter]
    exact ⟨by simp, nodup_eraseDups _⟩
termination_by l => l.length
decreasing_by simpa using Nat.lt_succ_of_le (List.length_filter_le _ l)

section Ranks

variable {α κ : Type} [LinearOrder κ] {le : α → α → Bool} {rank : α → κ}

/-- A sort by ranks puts the lesser before the greater. -/
theorem pairwise_mergeSort_rank (hle : ∀ a b, le a b = true ↔ rank a ≤ rank b) (l : List α) :
    (l.mergeSort le).Pairwise fun a b => rank a ≤ rank b := by
  have hsorted : (l.mergeSort le).Pairwise fun a b => le a b = true := by
    apply List.pairwise_mergeSort
    · intro a b c
      simp only [hle]
      exact le_trans
    · intro a b
      simp only [Bool.or_eq_true, hle]
      exact le_total _ _
  exact hsorted.imp fun h => (hle _ _).1 h

/-- A sort by ranks does not depend on the order of its items, if the ranks tell them apart. -/
theorem mergeSort_eq_of_perm (hle : ∀ a b, le a b = true ↔ rank a ≤ rank b) {l r : List α}
    (hinj : ∀ a ∈ l, ∀ b ∈ l, rank a = rank b → a = b) (h : l.Perm r) :
    l.mergeSort le = r.mergeSort le := by
  have hperm := (l.mergeSort_perm le).trans (h.trans (r.mergeSort_perm le).symm)
  refine List.Perm.eq_of_pairwise ?_ (pairwise_mergeSort_rank hle l)
    (pairwise_mergeSort_rank hle r) hperm
  intro a b ha hb hab hba
  exact hinj a ((l.mergeSort_perm le).mem_iff.1 ha) b
    (h.mem_iff.2 ((r.mergeSort_perm le).mem_iff.1 hb)) (le_antisymm hab hba)

/-- Of two items of a list one stands before the other. -/
theorem pair_sublist_or {l : List α} {a b : α} (ha : a ∈ l) (hb : b ∈ l) (hne : a ≠ b) :
    [a, b].Sublist l ∨ [b, a].Sublist l := by
  induction l with
  | nil => simp at ha
  | cons c l ih =>
    rcases List.mem_cons.1 ha with rfl | ha'
    · have hb' := (List.mem_cons.1 hb).resolve_left (Ne.symm hne)
      exact .inl ((List.singleton_sublist.2 hb').cons_cons a)
    · rcases List.mem_cons.1 hb with rfl | hb'
      · exact .inr ((List.singleton_sublist.2 ha').cons_cons b)
      · exact (ih ha' hb').imp (fun h => h.cons c) fun h => h.cons c

/-- In an order by ranks one of two items stands before the other exactly if its rank is the
lesser. -/
theorem pair_sublist_iff_rank_lt {l : List α} (hsorted : l.Pairwise fun a b => rank a ≤ rank b)
    {a b : α} (ha : a ∈ l) (hb : b ∈ l) (hne : rank a ≠ rank b) :
    [a, b].Sublist l ↔ rank a < rank b := by
  have hle : ∀ a b, [a, b].Sublist l → rank a ≤ rank b := fun _ _ h => by
    simpa using hsorted.sublist h
  constructor
  · exact fun h => lt_of_le_of_ne (hle a b h) hne
  · exact fun hlt => (pair_sublist_or ha hb fun h => hne (h ▸ rfl)).resolve_right
      fun h => absurd (hle b a h) (not_le_of_gt hlt)

end Ranks

namespace Stylesheet

theorem mem_ordered {byPrecedence : Bool} {rules : List Rule} {r : Rule} :
    r ∈ ordered byPrecedence rules ↔ r ∈ rules := by
  rw [ordered, (List.mergeSort_perm _ _).mem_iff]
  exact List.mem_eraseDups

theorem nodup_ordered (byPrecedence : Bool) (rules : List Rule) :
    (ordered byPrecedence rules).Nodup := by
  rw [ordered, (List.mergeSort_perm _ _).nodup_iff]
  exact nodup_eraseDups rules

theorem textOrder_iff (a b : Rule) : textOrder a b = true ↔ a.text ≤ b.text := by
  simp [textOrder]

/-- Without precedence the rules stand in the order of their texts. -/
theorem ordered_sorted (rules : List Rule) :
    (ordered false rules).Pairwise fun a b => a.text ≤ b.text :=
  pairwise_mergeSort_rank textOrder_iff rules.eraseDups

/-- The rules of a sheet in the order in which they are written, those of a block one by one. -/
def written (o : SheetOptions) (rules : List Rule) : List Rule :=
  let rules := ordered o.byPrecedence rules
  if o.combineMedia then
    (Rule.runs rules).flatMap fun (query, bodies) => bodies.map fun body => ⟨body, query⟩
  else rules

/-- Folding rules under their queries moves none of them. -/
theorem flatMap_runs (rules : List Rule) :
    (Rule.runs rules).flatMap (fun (query, bodies) => bodies.map fun body => ⟨body, query⟩)
      = rules := by
  induction rules with
  | nil => rfl
  | cons r rules ih =>
    rw [Rule.runs]
    split
    · next h =>
      rw [h] at ih
      simp [← ih]
    · next query bodies rest h =>
      rw [h] at ih
      split
      · next hquery => simp [← ih, ← hquery]
      · simp [← ih]

theorem written_eq (o : SheetOptions) (rules : List Rule) :
    written o rules = ordered o.byPrecedence rules := by
  rw [written]
  split
  · exact flatMap_runs _
  · rfl

theorem mem_written {o : SheetOptions} {rules : List Rule} {r : Rule} :
    r ∈ written o rules ↔ r ∈ rules := by
  rw [written_eq, mem_ordered]

/-- Without precedence a rule stands before another exactly if its text is the lesser. -/
theorem pair_sublist_written_iff {combineMedia : Bool} {rules : List Rule} {r r' : Rule}
    (hr : r ∈ rules) (hr' : r' ∈ rules) (hne : r.text ≠ r'.text) :
    [r, r'].Sublist (written ⟨false, combineMedia⟩ rules) ↔ r.text < r'.text := by
  rw [written_eq]
  exact pair_sublist_iff_rank_lt (ordered_sorted rules) (mem_ordered.2 hr) (mem_ordered.2 hr') hne

/-- How many rules of a sheet are on a class. -/
def ruleCount (rules : List Rule) (className : String) : Nat :=
  rules.countP fun r => decide (Rule.styledClass r.body = className)

theorem ruleCount_eq {rules : List Rule} {className : String} {rule : Rule} (hnodup : rules.Nodup)
    (h : ∀ r ∈ rules, Rule.styledClass r.body = className ↔ r = rule) :
    ruleCount rules className = if rule ∈ rules then 1 else 0 := by
  rw [← hnodup.count, ruleCount, List.count_eq_countP]
  refine List.countP_congr fun r hr => ?_
  simpa using h r hr

end Stylesheet
end AtomicCss

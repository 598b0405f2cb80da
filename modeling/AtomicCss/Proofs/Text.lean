import AtomicCss.StyleKey.Decode
import Mathlib.Data.Char
import Mathlib.Data.List.Lex
import Mathlib.Data.String.Basic

/-!
# Laws of cutting and comparing text

A text without the first character of a separator is passed over when the text is cut. Texts that
end with one mark and do not hold it before compare as they do with anything after the mark.
-/
namespace AtomicCss

namespace Text

theorem after?_eq_some {front s rest : List Char} :
    after? front s = some rest ↔ s = front ++ rest := by
  induction front generalizing s with
  | nil => simp [after?, eq_comm]
  | cons f front ih =>
    cases s with
    | nil => simp [after?]
    | cons c s =>
      rw [after?]
      by_cases h : f = c
      · simp [h, ih]
      · simp [h, Ne.symm h]

theorem cut_self {sep : List Char} (hne : sep ≠ []) (s : List Char) :
    cut sep (sep ++ s) = some ([], s) := by
  obtain ⟨c, sep, rfl⟩ := List.exists_cons_of_ne_nil hne
  rw [List.cons_append, cut, ← List.cons_append, after?_eq_some.2 rfl]

/-- The parts of a cut make up the text with the separator between them. -/
theorem eq_append_of_cut {sep s front rest : List Char} (h : cut sep s = some (front, rest)) :
    s = front ++ sep ++ rest := by
  induction s generalizing front with
  | nil =>
    rw [cut] at h
    split at h
    · next hempty =>
      cases h
      simp [List.isEmpty_iff.1 hempty]
    · cases h
  | cons c s ih =>
    rw [cut] at h
    split at h
    · next hafter =>
      cases h
      simpa using after?_eq_some.1 hafter
    · obtain ⟨⟨front', rest'⟩, hcut, heq⟩ := Option.map_eq_some_iff.1 h
      cases heq
      rw [ih hcut, List.cons_append, List.cons_append]

/-- What does not hold the first character of a separator stands before the cut. -/
theorem cut_append {c : Char} {sep front : List Char} (h : c ∉ front) (s : List Char) :
    cut (c :: sep) (front ++ s) = (cut (c :: sep) s).map fun (a, b) => (front ++ a, b) := by
  induction front with
  | nil => simp
  | cons d front ih =>
    obtain ⟨hd, h⟩ := not_or.1 (List.mem_cons.not.1 h)
    have hafter : after? (c :: sep) (d :: (front ++ s)) = none := by
      rw [after?, if_neg hd]
    rw [List.cons_append, cut, hafter, ih h, Option.map_map]
    rfl

/-- What stands before the first of a mark is told apart from what stands after it. -/
theorem eq_of_append_mark {c : Char} {a b s t : List Char} (ha : c ∉ a) (hb : c ∉ b)
    (h : a ++ c :: s = b ++ c :: t) : a = b ∧ s = t := by
  have hcut : ∀ {front : List Char}, c ∉ front → ∀ rest, cut [c] (front ++ c :: rest)
      = some (front, rest) := by
    intro front hfront rest
    have hself : cut [c] (c :: rest) = some ([], rest) := cut_self (List.cons_ne_nil c []) rest
    rw [cut_append hfront, hself]
    simp
  have hsame := hcut ha s
  rw [h, hcut hb t] at hsame
  obtain ⟨rfl, rfl⟩ := Prod.mk.inj (Option.some.inj hsame)
  exact ⟨rfl, rfl⟩

theorem cut_eq_none {c : Char} {sep s : List Char} (h : c ∉ s) : cut (c :: sep) s = none := by
  have hcut : cut (c :: sep) (s ++ []) = _ := cut_append h []
  rw [List.append_nil] at hcut
  rw [hcut, cut]
  rfl

/-- A text that neither holds a double mark nor ends with the mark stands before the cut. -/
theorem cut_append_double {x : Char} {front : List Char} (h : occurs [x, x] front = false)
    (hlast : front.getLast? ≠ some x) (s : List Char) :
    cut [x, x] (front ++ x :: x :: s) = some (front, s) := by
  induction front with
  | nil => exact cut_self (List.cons_ne_nil x [x]) s
  | cons c front ih =>
    have hafter : after? [x, x] (c :: (front ++ x :: x :: s)) = none := by
      rw [after?]
      split
      · next hc =>
        subst hc
        cases front with
        | nil => simp at hlast
        | cons d front =>
          have hd : x ≠ d := by
            rintro rfl
            simp [occurs, cut, after?] at h
          simp [after?, hd]
      · rfl
    have hfront : occurs [x, x] front = false := by
      rw [occurs, cut] at h
      split at h
      · cases h
      · simpa [occurs] using h
    have hlast' : front.getLast? ≠ some x := by
      cases front with
      | nil => simp
      | cons d front => simpa using hlast
    rw [List.cons_append, cut, hafter, ih hfront hlast']
    rfl

/-- A run of characters ends where the first of another kind stands. -/
theorem run_append {p : Char → Bool} {front tail : List Char} (hfront : ∀ c ∈ front, p c = true)
    (htail : ∀ c ∈ tail.head?, p c = false) :
    (front ++ tail).takeWhile p = front ∧ (front ++ tail).dropWhile p = tail := by
  rw [List.takeWhile_append_of_pos hfront, List.dropWhile_append_of_pos hfront]
  cases tail with
  | nil => exact ⟨List.append_nil front, rfl⟩
  | cons c tail => simp [htail c rfl]

/-- What stands at the beginning of a text stands there also if more follows, unless the text is a
part of it. -/
theorem after?_append {front cs : List Char} (h : cs = front ∨ ¬cs <+: front) (rest : List Char) :
    after? front (cs ++ rest) = (after? front cs).map (· ++ rest) := by
  induction front generalizing cs with
  | nil => rfl
  | cons f front ih =>
    cases cs with
    | nil => simp at h
    | cons c cs =>
      rw [List.cons_append, after?, after?]
      split
      · next hf =>
        subst hf
        exact ih (by simpa using h)
      · rfl

/-- The characters of a joined text are those of its parts and of what joins them. -/
theorem mem_intercalate {sep : String} {parts : List String} {c : Char}
    (h : c ∈ (sep.intercalate parts).toList) : c ∈ sep.toList ∨ ∃ s ∈ parts, c ∈ s.toList := by
  induction parts with
  | nil => simp at h
  | cons s parts ih =>
    cases parts with
    | nil => exact .inr ⟨s, List.mem_cons_self, by simpa using h⟩
    | cons t parts =>
      rw [String.intercalate_cons_cons, String.toList_append, String.toList_append,
        List.mem_append, List.mem_append] at h
      rcases h with (h | h) | h
      · exact .inr ⟨s, List.mem_cons_self, h⟩
      · exact .inl h
      · exact (ih h).imp_right fun ⟨t, ht, hc⟩ => ⟨t, List.mem_cons_of_mem _ ht, hc⟩

end Text

theorem append_lt_append_iff (a : List Char) {r s : List Char} : a ++ r < a ++ s ↔ r < s := by
  induction a with
  | nil => rfl
  | cons c a ih => simp [ih]

theorem append_mark_lt_iff {x : Char} {a b : List Char} (ha : x ∉ a) (hb : x ∉ b) (hne : a ≠ b)
    (r s : List Char) : a ++ x :: r < b ++ x :: s ↔ a ++ [x] < b ++ [x] := by
  induction a generalizing b with
  | nil =>
    cases b with
    | nil => exact absurd rfl hne
    | cons d b =>
      have hd : x ≠ d := fun h => hb (h ▸ List.mem_cons_self)
      simp [List.cons_lt_cons_iff, hd]
  | cons c a ih =>
    obtain ⟨hc, ha'⟩ := not_or.1 (List.mem_cons.not.1 ha)
    cases b with
    | nil => simp [List.cons_lt_cons_iff, Ne.symm hc]
    | cons d b =>
      obtain ⟨-, hb'⟩ := not_or.1 (List.mem_cons.not.1 hb)
      simp only [List.cons_append, List.cons_lt_cons_iff]
      by_cases h : c = d
      · rw [ih ha' hb' fun hab => hne (by rw [h, hab])]
      · simp [h]

/-- A mark before all characters of two texts does not change how they compare. -/
theorem append_mark_lt_append_mark {x : Char} {a b : List Char} (ha : ∀ c ∈ a, x < c)
    (hb : ∀ c ∈ b, x < c) : a ++ [x] < b ++ [x] ↔ a < b := by
  induction a generalizing b with
  | nil =>
    cases b with
    | nil => simp
    | cons d b => simp [List.cons_lt_cons_iff, hb d List.mem_cons_self]
  | cons c a ih =>
    cases b with
    | nil =>
      have hc := ha c List.mem_cons_self
      simp [List.cons_lt_cons_iff, not_lt_of_gt hc, hc.ne']
    | cons d b =>
      simp only [List.cons_append, List.cons_lt_cons_iff]
      rw [ih (fun e he => ha e (List.mem_cons_of_mem _ he))
        fun e he => hb e (List.mem_cons_of_mem _ he)]

end AtomicCss

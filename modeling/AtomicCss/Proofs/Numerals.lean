import AtomicCss.Css.Effect

/-!
# Underscores in numerals

An underscore at the start of a text, or two in a row, make it no numeral, whatever blanks or
brackets stand around. So what is cut off a style key too early is never read as a number.
-/
namespace AtomicCss

theorem dropWhile_append_cons {α : Type} {p : α → Bool} {c : α} (h : p c = false)
    (front rest : List α) : (front ++ c :: rest).dropWhile p = front.dropWhile p ++ c :: rest := by
  induction front with
  | nil => simp [h]
  | cons d front ih =>
    rw [List.cons_append, List.dropWhile_cons, List.dropWhile_cons]
    split
    · exact ih
    · rfl

theorem Blank.trim_append_cons {p : Char → Bool} {c : Char} (h : p c = false)
    (front rest : List Char) :
    trim p (front ++ c :: rest) = front.dropWhile p ++ c :: (rest.reverse.dropWhile p).reverse := by
  rw [trim, dropWhile_append_cons h, List.reverse_append, List.reverse_cons, List.append_assoc,
    List.singleton_append, dropWhile_append_cons h]
  simp

namespace Numeral

/-- A text with an underscore at its start or with two in a row. -/
inductive Ungrouped : List Char → Prop
  | leading (rest : List Char) : Ungrouped ('_' :: rest)
  | double (front rest : List Char) : Ungrouped (front ++ '_' :: '_' :: rest)

namespace Ungrouped

variable {cs : List Char}

theorem trim (h : Ungrouped cs) {p : Char → Bool} (hp : p '_' = false) :
    Ungrouped (Blank.trim p cs) := by
  cases h with
  | leading rest =>
    have htrim := Blank.trim_append_cons hp [] rest
    rw [List.nil_append] at htrim
    rw [htrim]
    exact .leading _
  | double front rest =>
    rw [Blank.trim_append_cons hp, List.reverse_cons, dropWhile_append_cons hp]
    simpa using .double _ _

theorem ungroup_double (afterDigit : Bool) (front rest : List Char) :
    ungroup afterDigit (front ++ '_' :: '_' :: rest) = none := by
  have hmark : Digit.isDigit '_' = false := by decide
  induction front generalizing afterDigit with
  | nil => simp [ungroup, hmark]
  | cons c front ih =>
    rw [List.cons_append, ungroup]
    split
    · split
      · exact ih false
      · rfl
    · rw [ih]
      rfl

theorem ungroup_eq_none (h : Ungrouped cs) : ungroup false cs = none := by
  cases h with
  | leading rest => simp [ungroup]
  | double front rest => exact ungroup_double false front rest

theorem float?_eq_none (h : Ungrouped cs) : float? cs = none := by
  simp only [float?, (h.trim (by decide : Blank.isSpace '_' = false)).ungroup_eq_none]
  rfl

theorem of_after (h : Ungrouped cs) {rest : List Char} (hrest : Text.after? ['['] cs = some rest) :
    Ungrouped rest := by
  cases h with
  | leading s => simp [Text.after?] at hrest
  | double front s =>
    cases front with
    | nil => simp [Text.after?] at hrest
    | cons c front =>
      rw [List.cons_append, Text.after?] at hrest
      split at hrest
      · rw [Text.after?] at hrest
        cases hrest
        exact .double front s
      · cases hrest

theorem of_dropLast (h : Ungrouped cs) {rest : List Char}
    (hrest : Rule.dropLast? ']' cs = some rest) : Ungrouped rest := by
  have hcs : cs = rest ++ [']'] := by
    rw [Rule.dropLast?] at hrest
    split at hrest
    · next c s hs =>
      split at hrest
      · next hc =>
        cases hrest
        rw [← List.reverse_reverse cs, hs, hc, List.reverse_cons]
      · cases hrest
    · cases hrest
  subst hcs
  generalize hcs : rest ++ [']'] = cs at h
  cases h with
  | leading s =>
    cases rest with
    | nil => simp at hcs
    | cons c rest =>
      rw [(List.cons.inj hcs).1]
      exact .leading rest
  | double front s =>
    obtain rfl | ⟨s, c, rfl⟩ := List.eq_nil_or_concat s
    · have hcs : rest ++ [']'] = (front ++ ['_']) ++ ['_'] := by simpa using hcs
      have hlast := (List.append_inj' hcs rfl).2
      simp at hlast
    · have hcs : rest ++ [']'] = (front ++ '_' :: '_' :: s) ++ [c] := by simpa using hcs
      rw [(List.append_inj' hcs rfl).1]
      exact .double front s

theorem radius?_eq_none {value : String} (h : Ungrouped value.toList) :
    Rule.radius? value = none := by
  have hraw : Ungrouped (Blank.strip value.toList) := h.trim (by decide)
  have hinner : Ungrouped (((Text.after? ['['] (Blank.strip value.toList)).bind
      (Rule.dropLast? ']')).getD (Blank.strip value.toList)) := by
    cases hafter : Text.after? ['['] (Blank.strip value.toList) with
    | none => exact hraw
    | some rest =>
      cases hlast : Rule.dropLast? ']' rest with
      | none => simpa [hlast] using hraw
      | some inner => simpa [hlast] using (hraw.of_after hafter).of_dropLast hlast
  rw [Rule.radius?, hinner.float?_eq_none]
  rfl

end Ungrouped
end Numeral
end AtomicCss

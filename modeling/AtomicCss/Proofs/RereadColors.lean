import AtomicCss.Proofs.JsonRoundTrip
import AtomicCss.Proofs.NormalizedColors
import AtomicCss.Proofs.Numerals

/-!
# Colors read back from their text

A color that is read back from its text is the color that was written. Its numbers are the same, and
no numeral holds a character that keeps half of a surrogate pair.
-/
namespace AtomicCss

namespace Numeral

section Foreign

variable {c : Char} (hc : 0x100000 ≤ c.toNat) {cs : List Char}
include hc

theorem ne_of_foreign {d : Char} (hd : d.toNat < 0x100000) : c ≠ d := by
  rintro rfl
  omega

theorem value?_foreign : Digit.value? c = none := by
  have hscripts : ∀ z ∈ Digit.zeros, z + 10 < 0x100000 := by decide
  rw [Digit.value?, if_neg (by omega), Option.map_eq_none_iff, List.find?_eq_none]
  intro z hz
  have hlarge := hscripts z hz
  simp only [Bool.and_eq_true, decide_eq_true_eq]
  omega

theorem isSpace_foreign : Blank.isSpace c = false := by
  have hblank : Blank.isBlank c = false := by
    simp only [Blank.isBlank, Bool.or_eq_false_iff, Bool.and_eq_false_iff, decide_eq_false_iff_not,
      beq_eq_false_iff_ne]
    omega
  rw [Blank.isSpace, hblank, Bool.false_and]

theorem toLower_foreign : c.toLower = c := by
  apply Char.toLower_eq_of_not_isUpper
  intro hupper
  have hle : c.toNat ≤ 'Z'.toNat := (of_decide_eq_true hupper).2
  have hsmall : 'Z'.toNat < 0x100000 := by decide
  omega

theorem mem_trim_foreign (h : c ∈ cs) : c ∈ Blank.trim Blank.isSpace cs := by
  obtain ⟨front, rest, rfl⟩ := List.append_of_mem h
  rw [Blank.trim_append_cons (isSpace_foreign hc)]
  simp

theorem mem_of_ungroup {afterDigit : Bool} {ds : List Char} (hds : ungroup afterDigit cs = some ds)
    (h : c ∈ cs) : c ∈ ds := by
  fun_induction ungroup afterDigit cs generalizing ds with
  | case1 => cases h
  | case2 _ cs _ ih =>
    rcases List.mem_cons.1 h with rfl | h
    · exact absurd rfl (ne_of_foreign hc (by decide))
    · exact ih hds h
  | case3 => cases hds
  | case4 _ d cs _ ih =>
    obtain ⟨es, hes, rfl⟩ := Option.map_eq_some_iff.1 hds
    rcases List.mem_cons.1 h with rfl | h
    · exact List.mem_cons_self
    · exact List.mem_cons_of_mem _ (ih hes h)

theorem mem_sign (h : c ∈ cs) : c ∈ (sign cs).2 := by
  fun_cases sign cs with
  | case1 cs => exact (List.mem_cons.1 h).resolve_left (ne_of_foreign hc (by decide))
  | case2 cs => exact (List.mem_cons.1 h).resolve_left (ne_of_foreign hc (by decide))
  | case3 => exact h

theorem mem_digitRun (h : c ∈ cs) : c ∈ (digitRun cs).2 := by
  fun_induction digitRun cs with
  | case1 => exact h
  | case2 => exact h
  | case3 d cs digit hdigit ds rest hrun ih =>
    rw [hrun] at ih
    rcases List.mem_cons.1 h with rfl | h
    · rw [value?_foreign hc] at hdigit
      cases hdigit
    · exact ih h

theorem mem_exponent? {e : Int} {rest : List Char} (he : exponent? cs = some (e, rest))
    (h : c ∈ cs) : c ∈ rest := by
  cases cs with
  | nil => cases h
  | cons d cs =>
    rw [exponent?] at he
    by_cases hmark : d = 'e' ∨ d = 'E'
    · have hd : c ≠ d := by
        rcases hmark with rfl | rfl <;> exact ne_of_foreign hc (by decide)
      have hrun := mem_digitRun hc (mem_sign hc ((List.mem_cons.1 h).resolve_left hd))
      rw [if_pos hmark] at he
      dsimp only at he
      split at he
      · cases he
      · next hdigits =>
        obtain ⟨-, rfl⟩ := Prod.mk.inj (Option.some.inj he)
        rwa [hdigits] at hrun
    · rw [if_neg hmark] at he
      obtain ⟨-, rfl⟩ := Prod.mk.inj (Option.some.inj he)
      exact h

theorem mem_fraction (h : c ∈ cs) : c ∈ (match cs with
    | '.' :: rest => digitRun rest
    | rest => ([], rest)).2 := by
  split
  · exact mem_digitRun hc ((List.mem_cons.1 h).resolve_left (ne_of_foreign hc (by decide)))
  · exact h

theorem unsigned?_foreign (negative : Bool) (h : c ∈ cs) : unsigned? negative cs = none := by
  by_contra hsome
  obtain ⟨x, hx⟩ := Option.ne_none_iff_exists'.1 hsome
  simp only [unsigned?, Option.bind_eq_bind, Option.bind_eq_some_iff] at hx
  obtain ⟨-, -, ⟨e, rest⟩, he, _, hempty, -⟩ := hx
  obtain rfl := List.isEmpty_iff.1 ((Option.guard_eq_some' _).1 hempty)
  cases mem_exponent? hc he (mem_fraction hc (mem_digitRun hc h))

/-- A numeral has no foreign character. -/
theorem float?_foreign (h : c ∈ cs) : float? cs = none := by
  rw [float?]
  cases hgroup : ungroup false (Blank.trim Blank.isSpace cs) with
  | none => rfl
  | some ds =>
    have hds := mem_sign hc (mem_of_ungroup hc hgroup (mem_trim_foreign hc h))
    have hword : ∀ word : String, c ∉ word.toList →
        String.ofList ((sign ds).2.map Char.toLower) ≠ word := by
      rintro _ hnot rfl
      rw [String.toList_ofList] at hnot
      exact hnot (List.mem_map.2 ⟨c, hds, toLower_foreign hc⟩)
    have hinf := hword "inf" (by simp (disch := decide) [ne_of_foreign hc])
    have hinfinity := hword "infinity" (by simp (disch := decide) [ne_of_foreign hc])
    have hnan := hword "nan" (by simp (disch := decide) [ne_of_foreign hc])
    simp only [Option.bind_eq_bind, Option.bind_some, hinf, hinfinity, hnan, or_self, if_false]
    exact unsigned?_foreign hc _ hds

end Foreign

end Numeral

namespace Json

theorem joined_of_forall {cs : List Char} (h : ∀ c ∈ cs, Surrogate.half? c = none) :
    joined cs = cs := by
  induction cs using joined.induct with
  | case1 a b cs c hpair =>
    rw [paired?, h a List.mem_cons_self] at hpair
    cases hpair
  | case2 a b cs hpair ih =>
    rw [joined, hpair]
    simp only [ih fun c hc => h c (List.mem_cons_of_mem a hc)]
  | case3 cs hcs => rw [joined]; exact hcs

/-- No halves are joined in a numeral. -/
theorem joined_of_float? {cs : List Char} {x : Float} (h : Numeral.float? cs = some x) :
    joined cs = cs := by
  refine joined_of_forall fun c hc => ?_
  by_contra hhalf
  have hlarge : 0x100000 ≤ c.toNat := by
    by_contra hsmall
    simp [Surrogate.half?, hsmall] at hhalf
  rw [Numeral.float?_foreign hlarge hc] at h
  cases h

end Json

namespace Color

open Json

theorem eq_of_reread_number {n : Number} {w : Value} (hw : reread (.number n) = .ok w) :
    w = .number n := by
  cases n with
  | int n =>
    rw [reread] at hw
    split at hw
    · exact (Except.ok.inj hw).symm
    · cases hw
  | float _ => exact (Except.ok.inj hw).symm

theorem component_reread {v w : Value} (hw : reread v = .ok w) {x : Float}
    (hx : component v = .ok x) : component w = .ok x := by
  cases v with
  | null | list _ | map _ => cases hx
  | bool _ =>
    cases hw
    exact hx
  | number n => rwa [eq_of_reread_number hw]
  | text s =>
    cases hw
    rw [component] at hx ⊢
    split at hx
    · next y hy => rwa [joined_of_float? hy, String.ofList_toList, hy]
    · cases hx

theorem opaqueAlpha_reread {v w : Value} (hw : reread v = .ok w) :
    opaqueAlpha (some w) = opaqueAlpha (some v) := by
  cases v with
  | null | bool _ | text _ =>
    cases hw
    rfl
  | number n => rw [eq_of_reread_number hw]
  | list _ | map _ =>
    obtain ⟨_, -, rfl⟩ := map_eq_ok.1 hw
    rfl

theorem hexOfHsla_reread {items : List Value} {v : Value} (hv : reread (.list items) = .ok v)
    {hex : String} (h : hexOfHsla (.list items) = .ok hex) : hexOfHsla v = .ok hex := by
  obtain ⟨ws, hws, rfl⟩ := map_eq_ok.1 hv
  change hexOfComponents items = .ok hex at h
  change hexOfComponents ws = .ok hex
  match items with
  | [] | [_] | [_, _] => cases h
  | hue :: saturation :: lightness :: more =>
    simp only [rereadItems, bind_eq_ok, pure_eq_ok] at hws
    obtain ⟨hue', hhue, _, ⟨saturation', hsaturation, _,
      ⟨lightness', hlightness, more', hmore, rfl⟩, rfl⟩, rfl⟩ := hws
    simp only [hexOfComponents, mapError_eq_ok, bind_eq_ok] at h ⊢
    obtain ⟨x, hx, y, hy, z, hz, red, hred, green, hgreen, blue, hblue, hopacity⟩ := h
    refine ⟨x, component_reread hhue hx, y, component_reread hsaturation hy, z,
      component_reread hlightness hz, red, hred, green, hgreen, blue, hblue, ?_⟩
    cases more with
    | nil =>
      cases hmore
      exact hopacity
    | cons a more =>
      simp only [rereadItems, bind_eq_ok, pure_eq_ok] at hmore
      obtain ⟨a', ha, _, -, rfl⟩ := hmore
      simp only [List.head?_cons, opaqueAlpha_reread ha] at hopacity ⊢
      split_ifs at hopacity ⊢
      · exact hopacity
      · simp only [bind_eq_ok] at hopacity ⊢
        obtain ⟨alpha, halpha, hchannel⟩ := hopacity
        exact ⟨alpha, component_reread ha halpha, hchannel⟩

end Color
end AtomicCss

import AtomicCss.Proofs.JsonScalars
import AtomicCss.Proofs.WholeFloats

/-!
# Equal numbers are written alike

Numbers are compared by their exact values. Once whole floats are made integers, equal numbers are
the same: a float other than a zero is known by its value, and no float that stays one is whole. And
a number is known by its text, also when other text follows that does not continue it.
-/
namespace AtomicCss

def Ratio.toRat (r : Ratio) : ℚ := r.num / r.den

theorem Ratio.toRat_scaled (m q : Int) : (Ratio.scaled m 2 q).toRat = m * 2 ^ q := by
  rw [toRat, scaled]
  split
  · next hq =>
    obtain ⟨k, rfl⟩ := Int.eq_ofNat_of_zero_le hq
    simp
  · next hq =>
    obtain ⟨k, hk⟩ := Int.eq_ofNat_of_zero_le (show 0 ≤ -q by omega)
    obtain rfl : q = -(k : Int) := by omega
    simp [zpow_neg, div_eq_mul_inv]

theorem Ratio.toRat_eq_iff {r s : Ratio} (hr : 0 < r.den) (hs : 0 < s.den) :
    r.toRat = s.toRat ↔ r.num * s.den = s.num * r.den := by
  have hr' : (r.den : ℚ) ≠ 0 := by exact_mod_cast hr.ne'
  have hs' : (s.den : ℚ) ≠ 0 := by exact_mod_cast hs.ne'
  rw [toRat, toRat, div_eq_div_iff hr' hs']
  norm_cast

namespace Number

/-- An integer or a finite float. -/
def IsReal : Number → Prop
  | .int _ => True
  | .float x => x.isFinite = true

def toRat (n : Number) : ℚ := (n.ratio?.map Ratio.toRat).getD 0

variable {m n : Number}

theorem IsReal.exists_ratio (h : n.IsReal) : ∃ r, n.ratio? = some r ∧ 0 < r.den := by
  cases n with
  | int n => exact ⟨_, rfl, Nat.one_pos⟩
  | float x =>
    obtain ⟨m, q, hx⟩ := Float.exists_of_isFinite h
    have hr : x.ratio? = some (.scaled m 2 q) := by rw [Float.ratio?, hx, Binary.ratio?]
    exact ⟨_, hr, Binary.den_pos_of_ratio? hr⟩

theorem equal_iff (hm : m.IsReal) (hn : n.IsReal) : m.equal n = true ↔ m.toRat = n.toRat := by
  obtain ⟨r, hr, hrden⟩ := hm.exists_ratio
  obtain ⟨s, hs, hsden⟩ := hn.exists_ratio
  rw [equal, compare?, hr, hs, toRat, toRat, hr, hs]
  simp only [Option.map_some, Option.getD_some, Ratio.toRat_eq_iff hrden hsden]
  simp [Ratio.compare]

end Number

end AtomicCss

open AtomicCss

namespace Float

variable {x y : Float} {m q n p : Int}

theorem signBit_eq (h : Binary.ofFloat x = .finite m q) (hm : m ≠ 0) :
    x.signBit = decide (m < 0) := by
  simp only [Binary.ofFloat, Binary.ofBits] at h
  rw [signBit]
  split at h
  · split at h <;> cases h
  · simp only [Binary.finite.injEq] at h
    obtain ⟨h, -⟩ := h
    rw [decide_eq_decide]
    split at h <;> omega

/-- The magnitude of a float other than zero is rounded to itself. -/
theorem nearestBits_magnitude (h : Binary.ofFloat x = .finite m q) (hm : m ≠ 0) {a : Ratio}
    (ha : (a.num.natAbs : ℚ) / a.den = m.natAbs * 2 ^ q) (hden : 0 < a.den) :
    Ratio.nearestBits a.num.natAbs a.den
      = (q + 1074).toNat * Binary.leadingBit + m.natAbs := by
  obtain ⟨hmagnitude, -⟩ := Binary.exists_magnitude x.toBits.toNat_lt h hm
  refine Ratio.nearestBits_of_contains hmagnitude ?_ hden ?_
  · refine Nat.pos_of_ne_zero fun hzero => ?_
    rw [hzero, Nat.cast_zero, zero_div] at ha
    have hpos : (0 : ℚ) < m.natAbs * 2 ^ q :=
      mul_pos (by exact_mod_cast hmagnitude.pos) (by positivity)
    exact hpos.ne ha
  · rw [ha]
    exact Decimal.Interval.contains_value hmagnitude.pos q

/-- Floats of one value other than zero are the same. -/
theorem eq_of_value_eq (hx : Binary.ofFloat x = .finite m q) (hy : Binary.ofFloat y = .finite n p)
    (hm : m ≠ 0) (h : (m : ℚ) * 2 ^ q = n * 2 ^ p) : x = y := by
  have hq : (0 : ℚ) < 2 ^ q := by positivity
  have hp : (0 : ℚ) < 2 ^ p := by positivity
  have hn : n ≠ 0 := by
    rintro rfl
    rw [Int.cast_zero, zero_mul] at h
    exact hm (by exact_mod_cast (mul_eq_zero.1 h).resolve_right hq.ne')
  have hneg : m < 0 ↔ n < 0 := by
    have hsign : ∀ (k : Int) {c : ℚ}, 0 < c → (k * c < 0 ↔ k < 0) := by
      intro k c hc
      simp [mul_neg_iff, hc, hc.not_gt]
    rw [← hsign m hq, h, hsign n hp]
  have habs : (m.natAbs : ℚ) * 2 ^ q = n.natAbs * 2 ^ p := by
    have h' := congrArg (|·|) h
    rw [abs_mul, abs_mul, abs_of_pos hq, abs_of_pos hp] at h'
    rw [Nat.cast_natAbs, Nat.cast_natAbs]
    exact_mod_cast h'
  have hvalue := Ratio.natAbs_scaled (by decide : 0 < 2) m.natAbs q
  have hden := Ratio.den_scaled_pos (by decide : 0 < 2) m.natAbs q
  have hx' := Ratio.nearestSigned_eq hx hm (nearestBits_magnitude hx hm hvalue hden)
  have hy' := Ratio.nearestSigned_eq hy hn (nearestBits_magnitude hy hn (hvalue.trans habs) hden)
  rw [signBit_eq hx hm, decide_eq_decide.2 hneg, ← signBit_eq hy hn] at hx'
  exact hx'.symm.trans hy'

end Float

namespace AtomicCss

theorem Ratio.toRat_eq_intCast {r : Ratio} (hr : 0 < r.den) {k : Int} :
    r.toRat = k ↔ r.num = k * r.den := by
  have hden : (r.den : ℚ) ≠ 0 := by exact_mod_cast hr.ne'
  rw [toRat, div_eq_iff hden]
  norm_cast

namespace Number

variable {m n : Number}

theorem toRat_int (k : Int) : (Number.int k).toRat = k := by
  rw [toRat, ratio?, Option.map_some, Option.getD_some, Ratio.toRat, Ratio.ofInt, Nat.cast_one,
    div_one]

theorem toRat_float {x : Float} {m q : Int} (h : Binary.ofFloat x = .finite m q) :
    (Number.float x).toRat = m * 2 ^ q := by
  rw [toRat, ratio?, Float.ratio?, h, Binary.ratio?, Option.map_some, Option.getD_some,
    Ratio.toRat_scaled]

/-- A number becomes an integer if its value is one, and else stays the float that it is. -/
theorem normalize_cases (h : n.IsReal) : (∃ k, n.normalize = .int k ∧ n.toRat = k)
    ∨ ∃ x, n = .float x ∧ n.normalize = .float x ∧ ∀ k : Int, n.toRat ≠ k := by
  cases n with
  | int k => exact .inl ⟨k, rfl, toRat_int k⟩
  | float x =>
    obtain ⟨r, hr, hden⟩ := h.exists_ratio
    have hvalue : (Number.float x).toRat = r.toRat := by
      rw [toRat, hr, Option.map_some, Option.getD_some]
    rw [hvalue]
    cases hint : x.integer? with
    | some k =>
      obtain ⟨r', hr', hwhole⟩ := Float.exists_ratio_of_integer? hint
      obtain rfl : r = r' := Option.some.inj (hr.symm.trans hr')
      exact .inl ⟨k, by rw [normalize, hint], (Ratio.toRat_eq_intCast hden).2 hwhole.symm⟩
    | none =>
      refine .inr ⟨x, rfl, by rw [normalize, hint], fun k hk => ?_⟩
      have hwhole : r.num % (r.den : Int) = 0 := by
        rw [(Ratio.toRat_eq_intCast hden).1 hk, Int.mul_emod_left]
      have hratio : x.ratio? = some r := hr
      rw [Float.integer?, hratio, Option.bind_some, if_pos hwhole] at hint
      cases hint

/-- Numbers are equal exactly if they are the same once whole floats are integers. -/
theorem normalize_eq_iff (hm : m.IsReal) (hn : n.IsReal) :
    m.normalize = n.normalize ↔ m.equal n = true := by
  rw [equal_iff hm hn]
  rcases normalize_cases hm with ⟨k, hk, hmk⟩ | ⟨x, rfl, hx, hmk⟩
  · rcases normalize_cases hn with ⟨l, hl, hnl⟩ | ⟨y, rfl, hy, hnk⟩
    · rw [hk, hl, hmk, hnl, int.injEq, Int.cast_inj]
    · rw [hk, hy, hmk]
      exact ⟨nofun, fun h => absurd h.symm (hnk k)⟩
  · rcases normalize_cases hn with ⟨l, hl, hnl⟩ | ⟨y, rfl, hy, -⟩
    · rw [hx, hl, hnl]
      exact ⟨nofun, fun h => absurd h (hmk l)⟩
    · rw [hx, hy, float.injEq]
      constructor
      · rintro rfl
        rfl
      · intro h
        obtain ⟨m, q, hxm⟩ := Float.exists_of_isFinite hm
        obtain ⟨n, p, hyn⟩ := Float.exists_of_isFinite hn
        rw [toRat_float hxm] at hmk
        rw [toRat_float hxm, toRat_float hyn] at h
        refine Float.eq_of_value_eq hxm hyn ?_ h
        rintro rfl
        exact hmk 0 (by simp)

theorem IsReal.normalize (h : n.IsReal) : n.normalize.IsReal := by
  rcases normalize_cases h with ⟨k, hk, -⟩ | ⟨x, rfl, hx, -⟩
  · rw [hk]
    trivial
  · rwa [hx]

end Number

namespace Json

variable {rest more : List Char} (hrest : EndsNumber rest) (hmore : EndsNumber more)
include hrest

theorem number_floatText {x : Float} (hx : x.isFinite = true) :
    number ((numberText (.float x)).toList ++ rest) = .ok (.float x, rest) := by
  obtain ⟨m, q, hbinary⟩ := Float.exists_of_isFinite hx
  obtain ⟨w, htext, hw, hnearest⟩ := Decimal.exists_text floatNotation hbinary
  rw [numberText, htext, List.append_assoc, number_chars hw x.signBit hrest, hnearest]

include hmore

theorem eq_of_intText_append {k l : Int}
    (h : (Number.intText k).toList ++ rest = (Number.intText l).toList ++ more) :
    k = l ∧ rest = more := by
  have hdigits : Nat.toDigits 10 k.natAbs ++ rest = Nat.toDigits 10 l.natAbs ++ more →
      k.natAbs = l.natAbs ∧ rest = more := by
    intro h
    have hspan : ∀ {n : Nat} {cs : List Char}, EndsNumber cs →
        (Nat.toDigits 10 n ++ cs).span Char.isDigit = (Nat.toDigits 10 n, cs) := fun hcs =>
      span_append (fun _ hc => Decimal.isDigit_of_mem_toDigits hc) fun c hc => (hcs c hc).1
    have heq := congrArg (List.span Char.isDigit) h
    rw [hspan hrest, hspan hmore, Prod.mk.injEq] at heq
    have hvalue := congrArg (Nat.ofDigitChars 10 · 0) heq.1
    simp only [Nat.ofDigitChars_ten_toDigits] at hvalue
    exact ⟨hvalue, heq.2⟩
  -- a digit is no minus sign
  have hsign : ∀ {n : Nat} {cs ds : List Char}, '-' :: cs ≠ Nat.toDigits 10 n ++ ds := by
    intro n cs ds h
    obtain ⟨d, tail, hd⟩ : ∃ d tail, Nat.toDigits 10 n = d :: tail :=
      List.exists_cons_of_length_pos Nat.length_toDigits_pos
    have hdigit : d.isDigit = true := Decimal.isDigit_of_mem_toDigits (hd ▸ List.mem_cons_self)
    rw [hd, List.cons_append] at h
    exact Numeral.ne_of_isDigit hdigit (by decide) (List.cons.inj h).1.symm
  rw [Number.toList_intText, Number.toList_intText] at h
  by_cases hk : k < 0
  · by_cases hl : l < 0
    · rw [if_pos hk, if_pos hl, List.append_assoc, List.append_assoc] at h
      obtain ⟨habs, hrest⟩ := hdigits (List.cons.inj h).2
      exact ⟨by omega, hrest⟩
    · rw [if_pos hk, if_neg hl, List.append_assoc] at h
      exact absurd h hsign
  · by_cases hl : l < 0
    · rw [if_neg hk, if_pos hl, List.append_assoc] at h
      exact absurd h.symm hsign
    · rw [if_neg hk, if_neg hl] at h
      obtain ⟨habs, hrest⟩ := hdigits h
      exact ⟨by omega, hrest⟩

/-- A number is known by its text where the text that follows does not continue it. -/
theorem eq_of_numberText_append {m n : Number} (hm : m.IsReal) (hn : n.IsReal)
    (h : (numberText m).toList ++ rest = (numberText n).toList ++ more) : m = n ∧ rest = more := by
  have hread := congrArg number h
  cases m with
  | int k =>
    cases n with
    | int l =>
      obtain ⟨rfl, hrest⟩ := eq_of_intText_append hrest hmore h
      exact ⟨rfl, hrest⟩
    | float y =>
      rw [number_floatText hmore hn, numberText, number_intText k hrest] at hread
      split at hread <;> cases hread
  | float x =>
    rw [number_floatText hrest hm] at hread
    cases n with
    | int l =>
      rw [numberText, number_intText l hmore] at hread
      split at hread <;> cases hread
    | float y =>
      rw [number_floatText hmore hn] at hread
      cases hread
      exact ⟨rfl, rfl⟩

end Json
end AtomicCss

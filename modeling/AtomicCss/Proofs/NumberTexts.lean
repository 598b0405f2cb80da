import AtomicCss.Css.Scale
import AtomicCss.Css.Effect
import AtomicCss.Proofs.Gating
import AtomicCss.Proofs.Order
import AtomicCss.Proofs.Results
import AtomicCss.Proofs.WholeFloats

/-!
# Numbers read back from their texts

The text of an integer is a sign and digits, which are read as the float nearest to the integer. A
whole float is written as an integer, so it may come back as the other zero, which no length shows.
-/
namespace AtomicCss

namespace Digit

theorem value?_of_isDigit {c : Char} (h : c.isDigit = true) : value? c = some (c.toNat - 48) := by
  have hlt : c.toNat < 128 := by
    have hle : c.val ≤ '9'.val := by
      rw [Char.isDigit, Bool.and_eq_true] at h
      exact of_decide_eq_true h.2
    exact Nat.lt_of_le_of_lt hle (by decide)
  simp [value?, hlt, h]

end Digit

namespace Numeral

variable {cs : List Char}

theorem digitRun_of_forall (h : ∀ c ∈ cs, c.isDigit = true) :
    digitRun cs = (cs.map fun c => c.toNat - 48, []) := by
  induction cs with
  | nil => rfl
  | cons c cs ih =>
    rw [digitRun, Digit.value?_of_isDigit (h c List.mem_cons_self),
      ih fun d hd => h d (List.mem_cons_of_mem c hd)]
    rfl

theorem ofDigits_toDigits (n : Nat) :
    ofDigits ((Nat.toDigits 10 n).map fun c => c.toNat - 48) = n := by
  have hread : Nat.ofDigitChars 10 (Nat.toDigits 10 n) 0 = n :=
    Nat.ofDigitChars_toDigits (by decide) (by decide)
  rw [ofDigits, List.foldl_map]
  exact hread

theorem ungroup_of_notMem (afterDigit : Bool) (h : '_' ∉ cs) : ungroup afterDigit cs = some cs := by
  induction cs generalizing afterDigit with
  | nil => rfl
  | cons c cs ih =>
    rw [List.mem_cons, not_or] at h
    rw [ungroup, if_neg (Ne.symm h.1), ih _ h.2]
    rfl

end Numeral

namespace Blank

variable {p : Char → Bool} {cs : List Char}

theorem trim_of_forall (h : ∀ c ∈ cs, p c = false) : trim p cs = cs := by
  have hdrop : ∀ l : List Char, (∀ c ∈ l, p c = false) → l.dropWhile p = l := by
    intro l hl
    cases l with
    | nil => rfl
    | cons c l => simp [hl c List.mem_cons_self]
  rw [trim, hdrop cs h, hdrop _ fun c hc => h c (List.mem_reverse.1 hc), List.reverse_reverse]

end Blank

namespace Numeral

theorem isBlank_of_isDigit {c : Char} (h : c.isDigit = true) : Blank.isBlank c = false := by
  have hrange : 48 ≤ c.toNat ∧ c.toNat ≤ 57 := by
    rw [Char.isDigit, Bool.and_eq_true] at h
    exact ⟨of_decide_eq_true h.1, of_decide_eq_true h.2⟩
  simp [Blank.isBlank]
  omega

theorem isSpace_of_isDigit {c : Char} (h : c.isDigit = true) : Blank.isSpace c = false := by
  rw [Blank.isSpace, isBlank_of_isDigit h, Bool.false_and]

theorem ne_of_isDigit {c d : Char} (h : c.isDigit = true) (hd : d.isDigit = false) : c ≠ d := by
  rintro rfl
  rw [h] at hd
  cases hd

/-- A run of digits is no word for an infinity or for no number. -/
theorem word_of_isDigit {c : Char} (hc : c.isDigit = true) (cs : List Char) (word : String)
    {d : Char} (hword : word.toList.head? = some d) (hd : d.isDigit = false) :
    String.ofList ((c :: cs).map Char.toLower) ≠ word := by
  intro h
  have hhead : some c.toLower = some d := by
    rw [← hword, ← h]
    simp
  have hlower : c.toLower = c := by
    apply Char.toLower_eq_of_not_isUpper
    intro hupper
    rw [Char.isDigit, Bool.and_eq_true] at hc
    have hA := (of_decide_eq_true hupper).1
    exact absurd (UInt32.le_trans hA (of_decide_eq_true hc.2)) (by decide)
  rw [hlower] at hhead
  exact ne_of_isDigit hc hd (Option.some.inj hhead)

theorem unsigned?_of_forall (negative : Bool) {c : Char} (h : ∀ d ∈ c :: cs, d.isDigit = true) :
    unsigned? negative (c :: cs)
      = some (nearest negative (ofDigits ((c :: cs).map fun d => d.toNat - 48)) 0) := by
  simp [unsigned?, digitRun_of_forall h, exponent?]

theorem sign_of_isDigit {c : Char} (h : c.isDigit = true) : sign (c :: cs) = (false, c :: cs) := by
  have hminus : c ≠ '-' := ne_of_isDigit h (by decide)
  have hplus : c ≠ '+' := ne_of_isDigit h (by decide)
  simp [sign, hminus, hplus]

/-- What starts with a digit, after a minus or not, is no word and is read without a sign. -/
theorem float?_eq_unsigned? {c : Char} (hc : c.isDigit = true)
    (hblank : ∀ d ∈ c :: cs, Blank.isSpace d = false) (hmark : '_' ∉ c :: cs) (negative : Bool) :
    float? ((if negative then ['-'] else []) ++ c :: cs) = unsigned? negative (c :: cs) := by
  have hblank' : ∀ d ∈ (if negative then ['-'] else []) ++ c :: cs, Blank.isSpace d = false := by
    intro d hd
    rcases List.mem_append.1 hd with hd | hd
    · cases negative with
      | false => cases hd
      | true =>
        rw [List.mem_singleton.1 hd]
        decide
    · exact hblank d hd
  have hmark' : '_' ∉ (if negative then ['-'] else []) ++ c :: cs := by
    intro hm
    rcases List.mem_append.1 hm with hm | hm
    · cases negative <;> simp at hm
    · exact hmark hm
  have hsign : sign ((if negative then ['-'] else []) ++ c :: cs) = (negative, c :: cs) := by
    cases negative with
    | false => exact sign_of_isDigit hc
    | true => rfl
  have hinf := word_of_isDigit hc cs "inf" rfl (by decide)
  have hinfinity := word_of_isDigit hc cs "infinity" rfl (by decide)
  have hnan := word_of_isDigit hc cs "nan" rfl (by decide)
  rw [float?, Blank.trim_of_forall hblank', ungroup_of_notMem false hmark']
  simp only [Option.bind_eq_bind, Option.bind_some, hsign, hinf, hinfinity, hnan, or_self,
    if_false]

/-- Digits with or without a minus are read as the nearest float. -/
theorem float?_of_forall {c : Char} (h : ∀ d ∈ c :: cs, d.isDigit = true) (negative : Bool) :
    float? ((if negative then ['-'] else []) ++ c :: cs)
      = some (nearest negative (ofDigits ((c :: cs).map fun d => d.toNat - 48)) 0) := by
  have hmark : '_' ∉ c :: cs := fun hm => absurd (h _ hm) (by decide)
  rw [float?_eq_unsigned? (h c List.mem_cons_self) (fun d hd => isSpace_of_isDigit (h d hd)) hmark,
    unsigned?_of_forall negative h]

theorem nearest_of_ne_zero (negative : Bool) {n : Nat} (hn : n ≠ 0) :
    nearest negative n 0 = Ratio.nearestSigned negative ⟨n, 1⟩ := by
  have hlow : ¬(0 : Int) + (n.log2 : Int) < -1200 := by omega
  rw [nearest, if_neg hn, if_neg (by decide), if_neg hlow]
  simp [Ratio.scaled]

/-- The text of an integer is read as the float nearest to it. -/
theorem float?_intText {n : Int} {x : Float} (h : (Number.int n).toFloat = .ok x) :
    float? (Number.intText n).toList = some x := by
  have hx : (Ratio.ofInt n).nearest = x := by
    rw [Number.toFloat] at h
    split at h
    · exact Except.ok.inj h
    · cases h
  have hdigits : ∀ d ∈ Nat.toDigits 10 n.natAbs, d.isDigit = true :=
    fun d hd => Nat.isDigit_of_mem_toDigits (by decide) (by decide) hd
  have hread := ofDigits_toDigits n.natAbs
  rw [Number.toList_intText]
  cases hn : Nat.toDigits 10 n.natAbs with
  | nil => exact absurd hn (by simp)
  | cons c cs =>
    rw [hn] at hdigits hread
    have hfloat := float?_of_forall hdigits (decide (n < 0))
    simp only [decide_eq_true_eq] at hfloat
    rw [hfloat, hread, ← hx]
    by_cases hzero : n = 0
    · rw [hzero]
      rfl
    · rw [nearest_of_ne_zero _ (Int.natAbs_ne_zero.2 hzero)]
      rfl

end Numeral

variable {x y : Float}

theorem Ratio.num_scaled_zero (base : Nat) (e : Int) : (scaled 0 base e).num = 0 := by
  rw [scaled]
  split
  · exact Int.zero_mul _
  · rfl

theorem Number.isZero_of_ofFloat (h : Binary.ofFloat x = .finite 0 (-1074)) :
    (Number.float x).isZero = true := by
  refine Number.equal_int_iff.2 ⟨.scaled 0 2 (-1074), ?_, ?_⟩
  · rw [Number.ratio?, Float.ratio?, h]
    rfl
  · rw [Ratio.num_scaled_zero]
    exact (Int.zero_mul _).symm

theorem isFinite_of_agrees (h : x.Agrees y) (hx : x.isFinite = true) : y.isFinite = true := by
  rcases h.eq_or_zero with rfl | ⟨-, hy⟩
  · exact hx
  · exact Float.isFinite_of_ofFloat hy

namespace Length

theorem px_congr (h : x.Agrees y) : px (Number.float x) = px (Number.float y) := by
  rcases h.eq_or_zero with rfl | ⟨hx, hy⟩
  · rfl
  · simp only [px, Amount.count, Number.isZero_of_ofFloat hx, Number.isZero_of_ofFloat hy, if_true]

theorem rem_congr (h : x.Agrees y) (root : Amount) :
    rem (Number.float x) root = rem (Number.float y) root := by
  rcases h.eq_or_zero with rfl | ⟨hx, hy⟩
  · rfl
  · simp only [rem, Amount.count, Number.isZero_of_ofFloat hx, Number.isZero_of_ofFloat hy, if_true]

end Length

namespace Rule

theorem scaleLength_congr (p : ScaleProperty) (h : x.Agrees y) :
    scaleLength p x = scaleLength p y := by
  cases p
  case textSize => exact Length.rem_congr h _
  all_goals exact congrArg Except.ok (Length.px_congr h)

end Rule

/-- The characters other than digits in the texts of numbers. -/
def Number.marks : List Char := ['-', '+', '.', 'e', 'i', 'n', 'f', 'a']

section

variable {c : Char} (hdigit : c.isDigit = false) (hmark : c ∉ Number.marks)
include hdigit hmark

theorem Decimal.notMem_exponentText (e : Int) : c ∉ (exponentText e).toList := by
  simp only [Number.marks, List.mem_cons, List.not_mem_nil, or_false, not_or] at hmark
  have hzero : c ≠ '0' := by
    rintro rfl
    cases hdigit
  rw [exponentText]
  split <;> split <;> simp [notMem_digits hdigit, hmark, hzero]

theorem Decimal.notMem_layout (d : Scientific) : c ∉ (Notation.program.layout d).toList := by
  have hexponent := notMem_exponentText hdigit hmark
  simp only [Number.marks, List.mem_cons, List.not_mem_nil, or_false, not_or] at hmark
  have hzero : c ≠ '0' := by
    rintro rfl
    cases hdigit
  have hpart : ∀ n, c ∉ (digits d.coefficient).toList.take n
      ∧ c ∉ (digits d.coefficient).toList.drop n :=
    fun n => ⟨fun h => notMem_digits hdigit (List.mem_of_mem_take h),
      fun h => notMem_digits hdigit (List.mem_of_mem_drop h)⟩
  rw [Notation.layout]
  split
  · split
    · simp [notMem_digits hdigit, notMem_zeros hzero, hmark, hzero]
    · split
      · simp [hpart, hmark]
      · simp [notMem_digits hdigit, notMem_zeros hzero, hmark, hzero]
  · have htail := (hpart 1).2
    rw [List.drop_one] at htail
    simp only [Notation.program, Bool.false_eq_true, if_false]
    split <;> simp [hpart, htail, hexponent, hmark]

theorem Number.notMem_text (n : Number) : c ∉ n.text.toList := by
  have hlayout := Decimal.notMem_layout hdigit hmark
  simp only [marks, List.mem_cons, List.not_mem_nil, or_false, not_or] at hmark
  have hzero : c ≠ '0' := by
    rintro rfl
    cases hdigit
  cases n with
  | int n =>
    rw [text, intText]
    split <;> simp [Decimal.notMem_digits hdigit, hmark]
  | float x =>
    rw [text, Decimal.Notation.text]
    split
    · simp [Decimal.Notation.program, hmark]
    · split <;> simp [Decimal.Notation.program, hmark]
    · split <;> split <;> simp [hlayout, hmark, hzero]

theorem Length.notMem_px (hunit : c ∉ "px".toList) (n : Number) : c ∉ (px n).toList := by
  have htext := Number.notMem_text hdigit hmark n.normalize
  have hzero : c ≠ '0' := by
    rintro rfl
    cases hdigit
  rw [px]
  split
  · simpa using hzero
  · simpa [Amount.text, htext] using hunit

end

theorem Number.isBlank_of_mem_text {n : Number} {c : Char} (hc : c ∈ n.text.toList) :
    Blank.isBlank c = false := by
  have hmarks : ∀ c ∈ Number.marks, Blank.isBlank c = false := by
    simp [Number.marks, Blank.isBlank]
  by_cases hmark : c ∈ Number.marks
  · exact hmarks c hmark
  · cases hdigit : c.isDigit with
    | false => exact absurd hc (Number.notMem_text hdigit hmark n)
    | true => exact Numeral.isBlank_of_isDigit hdigit

theorem Rule.radius?_text {n : Number} (h : Numeral.float? n.text.toList = some x)
    (hx : x.isFinite = true) : radius? n.text = some x := by
  have hstrip : Blank.strip n.text.toList = n.text.toList :=
    Blank.trim_of_forall fun _ hc => Number.isBlank_of_mem_text hc
  have hbracket : Text.after? ['['] n.text.toList = none := by
    cases htext : n.text.toList with
    | nil => rfl
    | cons c cs =>
      have hc : '[' ≠ c := by
        rintro rfl
        exact Number.notMem_text (by decide) (by decide) n (htext ▸ List.mem_cons_self)
      rw [Text.after?, if_neg hc]
  simp [radius?, hstrip, hbracket, h, hx]

end AtomicCss

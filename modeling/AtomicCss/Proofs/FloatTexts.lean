import AtomicCss.Proofs.NumberTexts
import AtomicCss.Proofs.Rounding

/-!
# Floats read back from their texts

The text of a float other than a zero lays out the shortest decimal that rounds to the float:
digits, perhaps with a point among them, and perhaps an exponent. So a reader that rounds what is
written comes back to the float.
-/
open Float.Model AtomicCss

namespace Float

variable {x : Float}

theorem eq_ofBits (bits : Nat) (h : x.toBits.toNat = bits) :
    x = ofBits (UInt64.ofNat bits) := by
  rw [← h, UInt64.ofNat_toNat, ofBits_toBits]

theorem eq_of_zero {q : Int} (h : Binary.ofFloat x = .finite 0 q) :
    x = if x.signBit then -0.0 else 0.0 := by
  have hlt : x.toBits.toNat < 2 * 0x8000000000000000 := x.toBits.toNat_lt
  have hlead : Binary.leadingBit = 4503599627370496 := rfl
  have hmod := Nat.mod_lt x.toBits.toNat (by decide : 0 < 4503599627370496)
  simp only [Binary.ofFloat, Binary.ofBits, hlead] at h
  rw [signBit]
  split at h
  · split at h <;> cases h
  · simp only [Binary.finite.injEq] at h
    by_cases hsign : 0x8000000000000000 ≤ x.toBits.toNat
    · rw [if_pos hsign] at h
      rw [decide_eq_true hsign]
      refine eq_ofBits 0x8000000000000000 ?_
      obtain ⟨h, -⟩ := h
      split at h <;> omega
    · rw [if_neg hsign] at h
      rw [decide_eq_false hsign]
      refine eq_ofBits 0 ?_
      obtain ⟨h, -⟩ := h
      split at h <;> omega

theorem eq_of_infinite {negative : Bool} (h : Binary.ofFloat x = .infinite negative) :
    x = if x.signBit then -(1.0 / 0.0) else 1.0 / 0.0 := by
  have hlt : x.toBits.toNat < 2 * 0x8000000000000000 := x.toBits.toNat_lt
  have hlead : Binary.leadingBit = 4503599627370496 := rfl
  simp only [Binary.ofFloat, Binary.ofBits, hlead] at h
  rw [signBit]
  split at h
  · split at h
    · by_cases hsign : 0x8000000000000000 ≤ x.toBits.toNat
      · rw [decide_eq_true hsign]
        exact eq_ofBits 0xFFF0000000000000 (by omega)
      · rw [decide_eq_false hsign]
        exact eq_ofBits 0x7FF0000000000000 (by omega)
    · cases h
  · cases h

theorem eq_of_notANumber (h : Binary.ofFloat x = .notANumber) : x = 0.0 / 0.0 := by
  have hnan : ∀ y : Float, Binary.ofFloat y = .notANumber → y.toModel.unpack = .notANumber := by
    intro y hy
    simp only [Binary.ofFloat, Binary.ofBits] at hy
    split at hy
    · next hexponent =>
      split at hy
      · cases hy
      · next hmantissa =>
        change (UnpackedFloat.unpack .binary64 y.toModel.toBits.toBitVec) = _
        have hones :
            @UnpackedFloat.unpackExponent .binary64 y.toModel.toBits.toBitVec = -1#_ := by
          rw [UnpackedFloat.unpackExponent_def]
          apply BitVec.eq_of_toNat_eq
          rw [BitVec.extractLsb'_toNat, Nat.shiftRight_eq_div_pow]
          exact hexponent
        have hsome :
            @UnpackedFloat.unpackMantissa .binary64 y.toModel.toBits.toBitVec ≠ 0#_ := by
          intro hzero
          rw [UnpackedFloat.unpackMantissa_def] at hzero
          have hnat := congrArg BitVec.toNat hzero
          rw [BitVec.extractLsb'_toNat, Nat.shiftRight_zero] at hnat
          exact hmantissa hnat
        simp only [UnpackedFloat.unpack, hones, hsome, if_true, if_false]
    · cases hy
  have hbits := (UnpackedFloat.unpack_inj_of_valid x.toModel.valid
    (0.0 / 0.0 : Float).toModel.valid).1 ((hnan x h).trans (hnan _ (by rfl)).symm)
  exact toBits_inj.1 (UInt64.toBitVec_inj.1 hbits)

theorem exists_of_isFinite (h : x.isFinite = true) :
    ∃ m q, Binary.ofFloat x = .finite m q := by
  cases hx : Binary.ofFloat x with
  | finite m q => exact ⟨m, q, rfl⟩
  | infinite negative =>
    rw [eq_of_infinite hx] at h
    cases hsign : x.signBit <;> rw [hsign] at h <;> exact absurd h (by decide)
  | notANumber =>
    rw [eq_of_notANumber hx] at h
    exact absurd h (by decide)

end Float

namespace AtomicCss

namespace Numeral

theorem ofDigits_map (cs : List Char) :
    ofDigits (cs.map fun c => c.toNat - 48) = Nat.ofDigitChars 10 cs 0 := by
  rw [ofDigits, List.foldl_map]
  rfl

theorem digitRun_append {ds : List Char} (h : ∀ c ∈ ds, c.isDigit = true) (rest : List Char)
    (hrest : ∀ c ∈ rest.head?, Digit.value? c = none) :
    digitRun (ds ++ rest) = (ds.map fun c => c.toNat - 48, rest) := by
  induction ds with
  | nil =>
    cases rest with
    | nil => rfl
    | cons c rest => simp [digitRun, hrest c rfl]
  | cons c ds ih =>
    rw [List.cons_append, digitRun, Digit.value?_of_isDigit (h c List.mem_cons_self),
      ih fun d hd => h d (List.mem_cons_of_mem c hd)]
    rfl

end Numeral

namespace Decimal

/-- The digits of a number other than zero have no zero in front. -/
theorem exists_toDigits {n : Nat} (hn : 0 < n) : ∃ c cs, Nat.toDigits 10 n = c :: cs ∧ c ≠ '0' := by
  induction n using Nat.strongRecOn with
  | ind n ih =>
    rw [Nat.toDigits_eq_if (by decide)]
    split
    · next hlt =>
      refine ⟨_, [], rfl, ?_⟩
      rw [Ne, Nat.digitChar_eq_zero]
      exact hn.ne'
    · next hge =>
      obtain ⟨c, cs, hcs, hc⟩ := ih (n / 10) (by omega) (by omega)
      exact ⟨c, cs ++ [(n % 10).digitChar], by rw [hcs, List.cons_append], hc⟩

theorem toList_digits (n : Nat) : (digits n).toList = Nat.toDigits 10 n := Nat.toList_repr

theorem isDigit_of_mem_toDigits {n : Nat} {c : Char} (h : c ∈ Nat.toDigits 10 n) :
    c.isDigit = true :=
  Nat.isDigit_of_mem_toDigits (by decide) (by decide) h

/-- A number as it is written: digits, the digits after a point, and an exponent. -/
structure Written where
  whole : List Char
  fraction : List Char
  exponent : Option Int

namespace Written

def exponentChars : Option Int → List Char
  | some e => 'e' :: (exponentText e).toList
  | none => []

def chars (w : Written) : List Char :=
  w.whole ++ (if w.fraction.isEmpty then [] else '.' :: w.fraction) ++ exponentChars w.exponent

def scientific (w : Written) : Scientific :=
  ⟨Nat.ofDigitChars 10 (w.whole ++ w.fraction) 0, w.exponent.getD 0 - w.fraction.length⟩

/-- The text is a numeral of a float: of digits, with no needless zero in front, and with a point
or an exponent. -/
structure IsFloat (w : Written) : Prop where
  whole : ∀ c ∈ w.whole, c.isDigit = true
  fraction : ∀ c ∈ w.fraction, c.isDigit = true
  front : w.whole = ['0'] ∨ ∃ c cs, w.whole = c :: cs ∧ c ≠ '0'
  marked : w.fraction ≠ [] ∨ w.exponent.isSome = true

theorem IsFloat.exists_cons {w : Written} (hw : w.IsFloat) :
    ∃ c cs, w.chars = c :: cs ∧ c.isDigit = true := by
  obtain ⟨c, cs, hcs⟩ : ∃ c cs, w.whole = c :: cs := by
    rcases hw.front with h | ⟨c, cs, h, -⟩
    · exact ⟨_, _, h⟩
    · exact ⟨c, cs, h⟩
  refine ⟨c, _, by rw [chars, hcs, List.cons_append, List.cons_append], ?_⟩
  exact hw.whole c (hcs ▸ List.mem_cons_self)

end Written

section

variable {ds : List Char}

theorem isDigit_of_mem_zeros {n : Nat} {c : Char} (h : c ∈ List.replicate n '0') :
    c.isDigit = true := by
  rw [List.eq_of_mem_replicate h]
  rfl

/-- A zero after the last digit, which stands before the point unless there is an exponent. -/
theorem toRat_pointZero (ds : List Char) (k : Nat) (e : Option Int) :
    (Written.scientific ⟨ds ++ List.replicate k '0', ['0'], e⟩).toRat
      = Nat.ofDigitChars 10 ds 0 * 10 ^ (e.getD 0 + k) := by
  have hzeros : Nat.ofDigitChars 10 (ds ++ List.replicate k '0' ++ ['0']) 0
      = 10 ^ (k + 1) * Nat.ofDigitChars 10 ds 0 := by
    rw [List.append_assoc, ← List.replicate_succ', Nat.ofDigitChars_append,
      Nat.ofDigitChars_replicate_zero]
  have hten : (10 : ℚ) ≠ 0 := by norm_num
  simp only [Written.scientific, Scientific.toRat, hzeros]
  push_cast
  rw [← zpow_natCast, mul_right_comm, mul_comm, ← zpow_add₀ hten]
  congr 2
  push_cast [List.length_singleton]
  ring

theorem toRat_cut {n : Nat} (hn : n ≤ ds.length) (e : Option Int) :
    (Written.scientific ⟨ds.take n, ds.drop n, e⟩).toRat
      = Nat.ofDigitChars 10 ds 0 * 10 ^ (e.getD 0 + n - ds.length) := by
  simp only [Written.scientific, Scientific.toRat, List.take_append_drop, List.length_drop]
  congr 2
  omega

theorem toRat_below (ds : List Char) (n : Nat) :
    (Written.scientific ⟨['0'], List.replicate n '0' ++ ds, none⟩).toRat
      = Nat.ofDigitChars 10 ds 0 * 10 ^ (-(n : Int) - ds.length) := by
  have hzeros : Nat.ofDigitChars 10 (['0'] ++ (List.replicate n '0' ++ ds)) 0
      = Nat.ofDigitChars 10 ds 0 := by
    rw [← List.append_assoc, Nat.ofDigitChars_append, List.singleton_append, ← List.replicate_succ,
      Nat.ofDigitChars_replicate_zero, Nat.mul_zero]
  simp only [Written.scientific, Scientific.toRat, hzeros, List.length_append,
    List.length_replicate]
  congr 2
  push_cast [Option.getD_none]
  ring

variable (hdigit : ∀ d ∈ ds, d.isDigit = true) (hfront : ∃ c cs, ds = c :: cs ∧ c ≠ '0')
include hdigit

theorem isFloat_below (n : Nat) (hds : ds ≠ []) :
    Written.IsFloat ⟨['0'], List.replicate n '0' ++ ds, none⟩ where
  whole := by simp
  fraction d hd := (List.mem_append.1 hd).elim isDigit_of_mem_zeros (hdigit d)
  front := .inl rfl
  marked := .inl (by simp [hds])

include hfront

theorem isFloat_pointZero (k : Nat) (e : Option Int) :
    Written.IsFloat ⟨ds ++ List.replicate k '0', ['0'], e⟩ where
  whole d hd := (List.mem_append.1 hd).elim (hdigit d) isDigit_of_mem_zeros
  fraction := by simp
  front := by
    obtain ⟨c, cs, rfl, hc⟩ := hfront
    exact .inr ⟨c, _, List.cons_append, hc⟩
  marked := .inl (by simp)

theorem isFloat_cut {n : Nat} {e : Option Int} (hpos : 0 < n)
    (hmarked : n < ds.length ∨ e.isSome = true) :
    Written.IsFloat ⟨ds.take n, ds.drop n, e⟩ where
  whole d hd := hdigit d (List.mem_of_mem_take hd)
  fraction d hd := hdigit d (List.mem_of_mem_drop hd)
  front := by
    obtain ⟨c, cs, rfl, hc⟩ := hfront
    exact .inr ⟨c, cs.take (n - 1), List.take_cons hpos, hc⟩
  marked := hmarked.imp_left fun h => by simpa using h

end

/-- The text is a numeral of a float, and what is written is the number. -/
def Spells (text : String) (r : ℚ) : Prop :=
  ∃ w : Written, text.toList = w.chars ∧ w.IsFloat ∧ w.scientific.toRat = r

section

variable {s : String} (hdigit : ∀ d ∈ s.toList, d.isDigit = true)
include hdigit

theorem spells_below (n : Nat) (hs : s.toList ≠ []) :
    Spells ("0." ++ zeros n ++ s)
      (Nat.ofDigitChars 10 s.toList 0 * 10 ^ (-(n : Int) - s.length)) := by
  refine ⟨_, ?_, isFloat_below hdigit n hs, ?_⟩
  · have hne : s ≠ "" := by simpa using hs
    simp [Written.chars, Written.exponentChars, zeros, hne]
  · rw [toRat_below, String.length_toList]

variable (hfront : ∃ c cs, s.toList = c :: cs ∧ c ≠ '0')
include hfront

theorem spells_pointZero (k : Nat) :
    Spells (s ++ zeros k ++ ".0") (Nat.ofDigitChars 10 s.toList 0 * 10 ^ (k : Int)) := by
  refine ⟨_, ?_, isFloat_pointZero hdigit hfront k none, ?_⟩
  · simp [Written.chars, Written.exponentChars, zeros]
  · rw [toRat_pointZero, Option.getD_none, zero_add]

theorem spells_cut {n : Nat} (hpos : 0 < n) (hn : n < s.length) :
    Spells ((s.take n).toString ++ "." ++ (s.drop n).toString)
      (Nat.ofDigitChars 10 s.toList 0 * 10 ^ ((n : Int) - s.length)) := by
  have hcut : n < s.toList.length := by rwa [String.length_toList]
  refine ⟨_, ?_, isFloat_cut hdigit hfront hpos (e := none) (.inl hcut), ?_⟩
  · have hfraction : (s.toList.drop n).isEmpty = false := by simpa using hcut
    rw [Written.chars, hfraction]
    simp [Written.exponentChars]
  · rw [toRat_cut hcut.le, String.length_toList, Option.getD_none, zero_add]

/-- Before an exponent one digit stands before the point. A lone digit has a point only where the
notation says so. -/
theorem spells_exponent (point : Bool) (e : Int) :
    Spells ((s.take 1).toString
        ++ (if (s.drop 1).toString.isEmpty then (if point then ".0" else "")
          else "." ++ (s.drop 1).toString) ++ "e" ++ exponentText e)
      (Nat.ofDigitChars 10 s.toList 0 * 10 ^ (e + 1 - s.length)) := by
  have htail : (s.drop 1).toString = String.ofList (s.toList.drop 1) :=
    String.toList_injective (by simp)
  have hempty : (s.drop 1).toString.isEmpty = (s.toList.drop 1).isEmpty := by
    rw [htail, Bool.eq_iff_iff]
    simp
  have hlength := String.length_toList (s := s)
  rw [hempty]
  by_cases hlone : s.toList.drop 1 = [] ∧ point = true
  · obtain ⟨c, cs, hs, -⟩ := id hfront
    obtain rfl : cs = [] := by simpa [hs] using hlone.1
    refine ⟨_, ?_, isFloat_pointZero hdigit hfront 0 (some e), ?_⟩
    · simp [Written.chars, Written.exponentChars, hs, hlone.2]
    · rw [hs] at hlength
      rw [toRat_pointZero, ← hlength]
      simp
  · refine ⟨_, ?_, isFloat_cut hdigit hfront Nat.one_pos (e := some e) (.inr rfl), ?_⟩
    · rw [Written.chars]
      cases hdrop : (s.toList.drop 1).isEmpty with
      | true =>
        have hpoint : point = false := by simpa [List.isEmpty_iff.1 hdrop] using hlone
        simp [Written.exponentChars, hpoint]
      | false => simp [Written.exponentChars]
    · obtain ⟨c, cs, hs, -⟩ := hfront
      rw [toRat_cut (by simp [hs]), hlength]
      simp

end

/-- A decimal is laid out as a numeral of a float, and what is written is the decimal. -/
theorem spells_layout (f : Notation) {d : Scientific} (hd : 0 < d.coefficient) :
    Spells (f.layout d) d.toRat := by
  obtain ⟨coefficient, exponent⟩ := d
  have hlist := toList_digits coefficient
  have hdigit : ∀ d ∈ (digits coefficient).toList, d.isDigit = true := by
    rw [hlist]
    exact fun d hd => isDigit_of_mem_toDigits hd
  have hfront : ∃ c cs, (digits coefficient).toList = c :: cs ∧ c ≠ '0' := by
    rw [hlist]
    exact exists_toDigits hd
  have hread : Nat.ofDigitChars 10 (digits coefficient).toList 0 = coefficient := by
    rw [hlist]
    exact Nat.ofDigitChars_ten_toDigits
  have hne : (digits coefficient).toList ≠ [] := by
    obtain ⟨c, cs, hs, -⟩ := hfront
    simp [hs]
  change Spells _ (coefficient * 10 ^ exponent)
  simp only [Notation.layout]
  generalize digits coefficient = s at *
  rw [← hread]
  split
  · split
    · next hexponent =>
      simpa only [Int.toNat_of_nonneg hexponent] using
        spells_pointZero hdigit hfront exponent.toNat
    · split
      · next hexponent htop =>
        have hcut : exponent = ((exponent + s.length - 1).toNat + 1 : Nat) - s.length := by omega
        conv_rhs => rw [hcut]
        exact spells_cut hdigit hfront (Nat.succ_pos _) (by omega)
      · next hexponent htop =>
        have hbelow : exponent = -((-(exponent + s.length - 1) - 1).toNat : Int) - s.length := by
          omega
        conv_rhs => rw [hbelow]
        exact spells_below hdigit _ hne
  · have htop : exponent = exponent + s.length - 1 + 1 - s.length := by omega
    conv_rhs => rw [htop]
    exact spells_exponent hdigit hfront f.pointBeforeExponent _

end Decimal

namespace Decimal

/-- An exponent is a sign and digits. -/
theorem exists_exponentText (e : Int) : ∃ ds, (exponentText e).toList
      = (if e < 0 then '-' else '+') :: ds ∧ ds ≠ [] ∧ (∀ c ∈ ds, c.isDigit = true)
    ∧ Nat.ofDigitChars 10 ds 0 = e.natAbs := by
  have hlist := toList_digits e.natAbs
  have hread : Nat.ofDigitChars 10 (Nat.toDigits 10 e.natAbs) 0 = e.natAbs :=
    Nat.ofDigitChars_ten_toDigits
  have hdigit : ∀ c ∈ Nat.toDigits 10 e.natAbs, c.isDigit = true :=
    fun c hc => isDigit_of_mem_toDigits hc
  have hpos : 0 < (Nat.toDigits 10 e.natAbs).length := Nat.length_toDigits_pos
  have hsign : (if e < 0 then "-" else "+").toList = [if e < 0 then '-' else '+'] := by
    split <;> rfl
  simp only [exponentText, String.toList_append, hsign, List.singleton_append]
  by_cases hshort : (digits e.natAbs).length < 2
  · refine ⟨'0' :: Nat.toDigits 10 e.natAbs, ?_, by simp, ?_, ?_⟩
    · rw [if_pos hshort, String.toList_append, hlist]
      rfl
    · simpa using hdigit
    · rw [Nat.ofDigitChars_cons]
      exact hread
  · refine ⟨Nat.toDigits 10 e.natAbs, ?_, List.length_pos_iff.1 hpos, hdigit, hread⟩
    rw [if_neg hshort, hlist]

end Decimal

namespace Numeral

open Decimal

variable {w : Written}

theorem exponent?_exponentChars (e : Option Int) :
    exponent? (Written.exponentChars e) = some (e.getD 0, []) := by
  cases e with
  | none => rfl
  | some e =>
    obtain ⟨ds, htext, hne, hdigit, hread⟩ := exists_exponentText e
    have hsign : sign (exponentText e).toList = (decide (e < 0), ds) := by
      rw [htext]
      by_cases hneg : e < 0 <;> simp [sign, hneg]
    have hrun := digitRun_append hdigit [] (by simp)
    rw [List.append_nil] at hrun
    have hvalue := ofDigits_map ds
    rw [hread] at hvalue
    cases ds with
    | nil => exact absurd rfl hne
    | cons d ds =>
      simp only [Written.exponentChars, exponent?, true_or, if_true, hsign, hrun, List.map_cons,
        decide_eq_true_eq, Option.some.injEq, Prod.mk.injEq, and_true, Option.getD_some]
      rw [List.map_cons] at hvalue
      rw [hvalue]
      omega

theorem head?_exponentChars (e : Option Int) :
    ∀ c ∈ (Written.exponentChars e).head?, c = 'e' := by
  cases e with
  | none => simp [Written.exponentChars]
  | some e => simp [Written.exponentChars]

/-- What is written is rounded to a float. -/
theorem unsigned?_chars (hw : w.IsFloat) (negative : Bool) : unsigned? negative w.chars
    = some (nearest negative w.scientific.coefficient w.scientific.exponent) := by
  have hwhole : w.whole ≠ [] := by
    rcases hw.front with h | ⟨c, cs, h, -⟩ <;> simp [h]
  have hexponent : ∀ c ∈ (Written.exponentChars w.exponent).head?, Digit.value? c = none := by
    intro c hc
    rw [head?_exponentChars _ c hc]
    rfl
  cases hfraction : w.fraction with
  | nil =>
    have hrun := digitRun_append hw.whole _ hexponent
    have hpoint : ∀ rest, Written.exponentChars w.exponent ≠ '.' :: rest := by
      intro rest hrest
      exact absurd (head?_exponentChars w.exponent '.' (by simp [hrest])) (by decide)
    rw [unsigned?, Written.chars, hfraction, List.isEmpty_nil, if_pos rfl, List.append_nil, hrun]
    dsimp only
    split
    · next rest hrest => exact absurd hrest (hpoint rest)
    · simp [exponent?_exponentChars, ofDigits_map, hwhole, Written.scientific, hfraction]
  | cons d ds =>
    have hrun := digitRun_append hw.whole
      ('.' :: (w.fraction ++ Written.exponentChars w.exponent)) (by simp [Digit.value?])
    have hfrac := digitRun_append hw.fraction _ hexponent
    rw [unsigned?, Written.chars, List.append_assoc, if_neg (by simp [hfraction]),
      List.cons_append, hrun]
    simp [hfrac, exponent?_exponentChars, ← List.map_append, ofDigits_map, hwhole,
      Written.scientific]

end Numeral

namespace Decimal

/-- The text of a finite float is a sign and a numeral, and what is written rounds to the float. -/
theorem exists_text (f : Notation) {x : Float} {m q : Int} (h : Binary.ofFloat x = .finite m q) :
    ∃ w : Written, (f.text x).toList = (if x.signBit then ['-'] else []) ++ w.chars ∧ w.IsFloat
      ∧ Numeral.nearest x.signBit w.scientific.coefficient w.scientific.exponent = x := by
  have hsign : (if x.signBit then "-" else "").toList = if x.signBit then ['-'] else [] := by
    split <;> rfl
  simp only [Notation.text, h, String.toList_append, hsign]
  by_cases hm : m = 0
  · subst hm
    refine ⟨⟨['0'], ['0'], none⟩, by rw [if_pos rfl]; rfl,
      ⟨by simp, by simp, .inl rfl, .inl (by simp)⟩, ?_⟩
    exact (Float.eq_of_zero h).symm
  · obtain ⟨hpos, hcontains⟩ := contains_shortest (Int.natAbs_pos.2 hm) q
    obtain ⟨w, hchars, hw, hvalue⟩ := spells_layout f hpos
    refine ⟨w, by rw [if_neg hm, hchars], hw, ?_⟩
    rw [← hvalue] at hcontains
    refine Numeral.nearest_of_contains h hm ?_ hcontains
    by_contra hzero
    have hshortest : (0 : ℚ) < (shortest m.natAbs q).toRat :=
      mul_pos (by exact_mod_cast hpos) (by positivity)
    rw [← hvalue, Scientific.toRat, Nat.eq_zero_of_not_pos hzero] at hshortest
    simp at hshortest

end Decimal

namespace Number

/-- A float is read as it is written. -/
theorem float?_text (x : Float) : Numeral.float? (Number.float x).text.toList = some x := by
  cases h : Binary.ofFloat x with
  | finite m q =>
    obtain ⟨w, hchars, hw, hx⟩ := Decimal.exists_text .program h
    have hblank := fun c hc => isBlank_of_mem_text (n := .float x) (c := c) hc
    have hmark := notMem_text (c := '_') (by decide) (by decide) (.float x)
    rw [text, hchars] at hblank hmark ⊢
    have hread := Numeral.unsigned?_chars hw x.signBit
    rw [hx] at hread
    obtain ⟨c, cs, hcs, hc⟩ := hw.exists_cons
    rw [hcs] at hread hblank hmark ⊢
    rw [Numeral.float?_eq_unsigned? hc ?_ ?_, hread]
    · intro d hd
      rw [Blank.isSpace, hblank d (List.mem_append_right _ hd), Bool.false_and]
    · exact fun hm => hmark (List.mem_append_right _ hm)
  | infinite negative =>
    have hx := Float.eq_of_infinite h
    rw [text, Decimal.Notation.text, h]
    cases hsign : x.signBit with
    | false =>
      rw [hsign, if_neg Bool.false_ne_true] at hx
      rw [if_neg Bool.false_ne_true, hx]
      exact (rfl : Numeral.float? "inf".toList = some (1.0 / 0.0))
    | true =>
      rw [hsign, if_pos rfl] at hx
      rw [if_pos rfl, hx]
      exact (rfl : Numeral.float? "-inf".toList = some (-(1.0 / 0.0)))
  | notANumber =>
    have hx := Float.eq_of_notANumber h
    rw [text, Decimal.Notation.text, h, hx]
    rfl

/-- The normalized text of a number is read as the float nearest to it, but for the sign of
zero. -/
theorem float?_text_normalize {n : Number} {x : Float} (h : n.toFloat = .ok x) :
    ∃ y, Numeral.float? n.normalize.text.toList = some y ∧ x.Agrees y := by
  cases n with
  | int n => exact ⟨x, Numeral.float?_intText h, .refl x⟩
  | float z =>
    obtain rfl : z = x := Except.ok.inj h
    rw [normalize]
    cases hint : z.integer? with
    | some n =>
      obtain ⟨y, hy, hagrees⟩ := Float.toFloat_of_integer? hint
      exact ⟨y, Numeral.float?_intText hy, hagrees⟩
    | none => exact ⟨z, float?_text z, .refl z⟩

end Number
end AtomicCss

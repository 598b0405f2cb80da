import AtomicCss.Proofs.EqualNumbers

/-!
# Rounding keeps the order

The greater of two rational numbers is not rounded to the smaller float. Within one binade this is
so because rounding to an integer keeps the order, and across binades because a mantissa is at most
the leading bit of the binade above. So a number is rounded to a finite float exactly if it lies
below the middle between the greatest float and the power of two that follows it.
-/
namespace AtomicCss

/-- The integer is nearest to a rational number, and even if another is as near. -/
structure IsNearestEven (m : Nat) (r : ℚ) : Prop where
  low : (m : ℚ) - 1 / 2 ≤ r
  high : r ≤ m + 1 / 2
  odd : m % 2 = 1 → (m : ℚ) - 1 / 2 < r ∧ r < m + 1 / 2

theorem exists_isNearestEven {r : ℚ} (hr : 0 ≤ r) : ∃ m : Nat, IsNearestEven m r := by
  obtain ⟨k, hk, hlt⟩ : ∃ k : Nat, (k : ℚ) ≤ r ∧ r < k + 1 :=
    ⟨⌊r⌋₊, Nat.floor_le hr, Nat.lt_floor_add_one r⟩
  rcases lt_trichotomy r (k + 1 / 2) with hless | hhalf | hmore
  · exact ⟨k, by linarith, hless.le, fun _ => ⟨by linarith, hless⟩⟩
  · rcases Nat.mod_two_eq_zero_or_one k with heven | hodd
    · exact ⟨k, by linarith, hhalf.le, fun h => by omega⟩
    · refine ⟨k + 1, ?_, ?_, fun h => by omega⟩ <;> push_cast <;> linarith
  · refine ⟨k + 1, ?_, ?_, fun _ => ⟨?_, ?_⟩⟩ <;> push_cast <;> linarith

/-- If two numbers were rounded against their order, they would be the same number, halfway between
an even integer and an odd one. -/
theorem IsNearestEven.mono {m n : Nat} {r s : ℚ} (hm : IsNearestEven m r) (hn : IsNearestEven n s)
    (h : r ≤ s) : m ≤ n := by
  by_contra hgt
  have hstep : (n : ℚ) + 1 ≤ m := by exact_mod_cast not_le.1 hgt
  have hlow := hm.low
  have hhigh := hn.high
  have hnext : (m : ℚ) = n + 1 := by linarith
  have hnext : m = n + 1 := by exact_mod_cast hnext
  rcases Nat.mod_two_eq_zero_or_one n with heven | hodd
  · have := (hm.odd (by omega)).1
    linarith
  · have := (hn.odd hodd).2
    linarith

namespace Ratio

variable {n d n' d' : Nat}

/-- The exponent of the unit in which a quotient is rounded. -/
def unitExponent (n d : Nat) : Int := max (binade n d - 52) (-1074)

theorem binade_mono (hn : 0 < n) (hd : 0 < d) (hn' : 0 < n') (hd' : 0 < d')
    (h : (n : ℚ) / d ≤ n' / d') : binade n d ≤ binade n' d' := by
  have hlow := (binade_spec hn hd).1
  have hhigh := (binade_spec hn' hd').2
  have hlt := (zpow_lt_zpow_iff_right₀ (one_lt_two (α := ℚ))).1 ((hlow.trans h).trans_lt hhigh)
  omega

/-- The mantissa has no more than 53 digits, and no fewer unless the unit is the least one. -/
theorem exists_mantissa (hn : 0 < n) (hd : 0 < d) : ∃ m : Nat,
    IsNearestEven m (n / d / 2 ^ unitExponent n d)
      ∧ nearestBits n d
        = min ((unitExponent n d + 1074).toNat * Binary.leadingBit + m) infinityBits
      ∧ m ≤ 2 * Binary.leadingBit
      ∧ (-1074 < unitExponent n d → Binary.leadingBit ≤ m) := by
  have hunit : (0 : ℚ) < 2 ^ unitExponent n d := by positivity
  obtain ⟨hlow, hhigh⟩ := binade_spec hn hd
  obtain ⟨m, hm⟩ := exists_isNearestEven (r := n / d / 2 ^ unitExponent n d) (by positivity)
  refine ⟨m, hm, nearestBits_eq hn hd rfl hm.low hm.high hm.odd, ?_, fun hleast => ?_⟩
  · have hlt : (n : ℚ) / d / 2 ^ unitExponent n d < 2 ^ (53 : Int) := by
      rw [div_lt_iff₀ hunit, ← zpow_add₀ two_ne_zero]
      refine hhigh.trans_le (zpow_le_zpow_right₀ one_le_two ?_)
      rw [unitExponent]
      omega
    rw [zpow_ofNat] at hlt
    have hle : (m : ℚ) < 2 ^ 53 + 1 := by linarith [hm.low]
    have hle : m < 2 ^ 53 + 1 := by exact_mod_cast hle
    exact Nat.lt_succ_iff.1 hle
  · have hge : (2 : ℚ) ^ (52 : Int) ≤ n / d / 2 ^ unitExponent n d := by
      rw [le_div_iff₀ hunit, ← zpow_add₀ two_ne_zero]
      refine le_trans (zpow_le_zpow_right₀ one_le_two ?_) hlow
      rw [unitExponent] at hleast ⊢
      omega
    rw [zpow_ofNat] at hge
    have hlt : (2 : ℚ) ^ 52 < m + 1 := by linarith [hm.high]
    have hlt : 2 ^ 52 < m + 1 := by exact_mod_cast hlt
    exact Nat.lt_succ_iff.1 hlt

/-- The greater of two quotients is not rounded to the lower bits. -/
theorem nearestBits_mono (hd : 0 < d) (hd' : 0 < d') (h : (n : ℚ) / d ≤ n' / d') :
    nearestBits n d ≤ nearestBits n' d' := by
  rcases Nat.eq_zero_or_pos n with rfl | hn
  · simp [nearestBits]
  have hquotient : (0 : ℚ) < n / d := by positivity
  have hn' : 0 < n' := by
    refine Nat.pos_of_ne_zero ?_
    rintro rfl
    rw [Nat.cast_zero, zero_div] at h
    linarith
  obtain ⟨m, hm, hbits, hle, -⟩ := exists_mantissa hn hd
  obtain ⟨m', hm', hbits', -, hge⟩ := exists_mantissa hn' hd'
  rw [hbits, hbits']
  refine min_le_min_right _ ?_
  have hbinade := binade_mono hn hd hn' hd' h
  have hleast : -1074 ≤ unitExponent n d := le_max_right _ _
  obtain heq | hlt : unitExponent n d = unitExponent n' d'
      ∨ unitExponent n d < unitExponent n' d' := by
    rw [unitExponent, unitExponent]
    omega
  · rw [heq] at hm ⊢
    have hmm := hm.mono hm' (div_le_div_of_nonneg_right h (by positivity))
    omega
  · -- a mantissa of the lower binade is at most the leading bit of the next
    have hlead := hge (by omega)
    obtain ⟨k, hk⟩ : ∃ k, (unitExponent n' d' + 1074).toNat
        = (unitExponent n d + 1074).toNat + 1 + k := Nat.exists_eq_add_of_le (by omega)
    rw [hk]
    nlinarith

/-- The quotients from here on round to the infinity. It lies halfway between the greatest float and
the power of two that follows. -/
def overflow : Nat := (2 ^ 54 - 1) * 2 ^ 970

theorem overflow_eq : (overflow : ℚ) = 2 ^ 1024 - 2 ^ 970 := by
  have h : overflow + 2 ^ 970 = 2 ^ 1024 := by decide +kernel
  rw [eq_sub_iff_add_eq]
  simpa only [Nat.cast_add, Nat.cast_pow, Nat.cast_ofNat]
    using congrArg (fun n : Nat => (n : ℚ)) h

def greatest : Nat := (2 ^ 53 - 1) * 2 ^ 971

theorem nearestBits_greatest : nearestBits greatest 1 = infinityBits - 1 := by decide +kernel

theorem nearestBits_overflow : nearestBits overflow 1 = infinityBits := by decide +kernel

/-- What lies between the greatest float and the overflow is rounded to the greatest float. -/
theorem contains_greatest {r : ℚ} (low : greatest < r) (high : r < overflow) :
    (Decimal.Interval.around (2 ^ 53 - 1) 971).Contains r := by
  have hunit : ∀ k m e : Nat, k = m * 2 ^ e → (k : ℚ) = m * 2 ^ (e : Int) := by
    rintro _ m e rfl
    rw [Nat.cast_mul, Nat.cast_pow, zpow_natCast, Nat.cast_ofNat]
  rw [hunit greatest (2 ^ 55 - 4) 969 (by decide +kernel)] at low
  rw [hunit overflow (2 ^ 55 - 2) 969 (by decide +kernel)] at high
  refine ⟨lt_of_le_of_lt ?_ low, high⟩
  exact mul_le_mul_of_nonneg_right (by exact_mod_cast (by decide)) (by positivity)

theorem nearestBits_lt_infinityBits_iff (hd : 0 < d) :
    nearestBits n d < infinityBits ↔ (n : ℚ) / d < overflow := by
  have hone : ((overflow : Nat) : ℚ) / (1 : Nat) = overflow := by rw [Nat.cast_one, div_one]
  constructor
  · intro h
    by_contra hge
    have := nearestBits_mono (n := overflow) Nat.one_pos hd (hone.trans_le (not_lt.1 hge))
    rw [nearestBits_overflow] at this
    omega
  · intro h
    rcases le_or_gt ((n : ℚ) / d) greatest with hle | hgt
    · have hone : ((greatest : Nat) : ℚ) / (1 : Nat) = greatest := by rw [Nat.cast_one, div_one]
      have := nearestBits_mono hd Nat.one_pos (hle.trans_eq hone.symm)
      rw [nearestBits_greatest] at this
      exact Nat.lt_of_le_pred (by decide) this
    · -- between the greatest float and the middle
      have hn : 0 < n := by
        refine Nat.pos_of_ne_zero ?_
        rintro rfl
        rw [Nat.cast_zero, zero_div] at hgt
        exact absurd hgt (not_lt.2 (Nat.cast_nonneg _))
      have hmagnitude : Binary.IsMagnitude (2 ^ 53 - 1) 971 :=
        ⟨by decide, by decide, by decide, fun _ => by decide, by decide⟩
      rw [nearestBits_of_contains hmagnitude hn hd (contains_greatest hgt h)]
      decide

end Ratio

namespace Binary

/-- The value of the bits of a float without its sign. -/
def magnitude (bits : Nat) : ℚ :=
  let e := max (bits / leadingBit) 1
  (bits - (e - 1) * leadingBit : Nat) * 2 ^ ((e : Int) - 1075)

theorem magnitude_nonneg (bits : Nat) : 0 ≤ magnitude bits := by
  rw [magnitude]
  positivity

/-- Where the exponent steps up, the mantissa goes from twice the leading bit to the leading bit. -/
theorem magnitude_mono : Monotone magnitude := by
  refine monotone_nat_of_le_succ fun bits => ?_
  have hlead : leadingBit = 4503599627370496 := rfl
  simp only [magnitude, hlead]
  obtain hsame | hnext : max ((bits + 1) / 4503599627370496) 1 = max (bits / 4503599627370496) 1
      ∨ max ((bits + 1) / 4503599627370496) 1 = max (bits / 4503599627370496) 1 + 1 := by omega
  · rw [hsame]
    refine mul_le_mul_of_nonneg_right ?_ (by positivity)
    exact_mod_cast (by omega)
  · have hbits : bits - (max (bits / 4503599627370496) 1 - 1) * 4503599627370496
        = 9007199254740991 := by omega
    have hleading : bits + 1 - (max ((bits + 1) / 4503599627370496) 1 - 1) * 4503599627370496
        = 4503599627370496 := by omega
    rw [hbits, hleading, hnext, Nat.cast_add, Nat.cast_one, add_sub_right_comm,
      zpow_add_one₀ two_ne_zero, Nat.cast_ofNat, Nat.cast_ofNat]
    generalize ((max (bits / 4503599627370496) 1 : Nat) : Int) - 1075 = q
    have hpos : (0 : ℚ) < 2 ^ q := by positivity
    linarith

theorem ofBits_signed (negative : Bool) {bits : Nat} (h : bits < Ratio.infinityBits) :
    ∃ m q, ofBits (if negative then 0x8000000000000000 + bits else bits) = .finite m q
      ∧ (m : ℚ) * 2 ^ q = if negative then -magnitude bits else magnitude bits := by
  have hlead : leadingBit = 4503599627370496 := rfl
  have hinf : Ratio.infinityBits = 2047 * 4503599627370496 := rfl
  have hexponent : (if negative then 0x8000000000000000 + bits else bits) / leadingBit % 2048
      = bits / leadingBit := by
    rw [hlead]
    split <;> omega
  have hfraction : (if negative then 0x8000000000000000 + bits else bits) % leadingBit
      = bits % leadingBit := by
    rw [hlead]
    split <;> omega
  have hsign : 0x8000000000000000 ≤ (if negative then 0x8000000000000000 + bits else bits)
      ↔ negative = true := by
    cases negative <;> simp
    omega
  have hne : bits / leadingBit ≠ 2047 := by
    rw [hlead]
    omega
  have hmantissa : bits - (max (bits / leadingBit) 1 - 1) * leadingBit
      = if bits / leadingBit = 0 then bits % leadingBit else leadingBit + bits % leadingBit := by
    rw [hlead]
    split <;> omega
  have hunit : ((max (bits / leadingBit) 1 : Nat) : Int) - 1075
      = if bits / leadingBit = 0 then (-1074 : Int) else (bits / leadingBit : Nat) - 1075 := by
    split <;> omega
  have hbits : ofBits (if negative then 0x8000000000000000 + bits else bits)
      = .finite (if negative then -(bits - (max (bits / leadingBit) 1 - 1) * leadingBit : Nat)
          else (bits - (max (bits / leadingBit) 1 - 1) * leadingBit : Nat))
        (((max (bits / leadingBit) 1 : Nat) : Int) - 1075) := by
    simp only [ofBits, hexponent, hfraction, hsign, if_neg hne, hmantissa, hunit]
  refine ⟨_, _, hbits, ?_⟩
  rw [magnitude]
  cases negative <;> simp

end Binary
end AtomicCss

open AtomicCss Float.Model

theorem Float.toNat_toBits_ofBits {bits : Nat} (hbits : bits < 2 * 0x8000000000000000)
    (h : bits / Binary.leadingBit % 2048 ≠ 2047) :
    (ofBits (UInt64.ofNat bits)).toBits.toNat = bits := by
  have hnat : (UInt64.ofNat bits).toNat = bits := by
    rw [UInt64.toNat_ofNat']
    exact Nat.mod_eq_of_lt hbits
  have hvalid : Format.binary64.Valid (UInt64.ofNat bits).toBitVec := by
    refine ⟨fun hones => absurd ?_ h⟩
    rw [UnpackedFloat.unpackExponent_def] at hones
    have hexponent := congrArg BitVec.toNat hones
    simp only [BitVec.extractLsb'_toNat, Nat.shiftRight_eq_div_pow] at hexponent
    rw [← hnat]
    exact hexponent
  have hself := ofBits_toBits ⟨⟨UInt64.ofNat bits, hvalid⟩⟩
  change ofBits (UInt64.ofNat bits) = _ at hself
  rw [hself]
  exact hnat

namespace AtomicCss

/-- The value of the float nearest to a rational number, unless it overflows. -/
def nearestFloat (r : ℚ) : ℚ :=
  if r < 0 then -Binary.magnitude (Ratio.nearestBits r.num.natAbs r.den)
  else Binary.magnitude (Ratio.nearestBits r.num.natAbs r.den)

namespace Ratio

variable {a : Ratio}

theorem natAbs_div_den (a : Ratio) : (a.num.natAbs : ℚ) / a.den = |a.toRat| := by
  rw [toRat, abs_div, Nat.abs_cast, Nat.cast_natAbs, Int.cast_abs]

theorem toRat_neg_iff (ha : 0 < a.den) : a.toRat < 0 ↔ a.num < 0 := by
  have hden : (0 : ℚ) < a.den := by exact_mod_cast ha
  rw [toRat, div_lt_iff₀ hden, zero_mul]
  exact_mod_cast Iff.rfl

theorem natAbs_num_div_den (r : ℚ) : (r.num.natAbs : ℚ) / r.den = |r| := by
  have h := natAbs_div_den ⟨r.num, r.den⟩
  rwa [toRat, Rat.num_div_den] at h

/-- The bits are those of the value, in whatever way it is written as a quotient. -/
theorem nearestBits_toRat (ha : 0 < a.den) : nearestBits a.toRat.num.natAbs a.toRat.den
    = nearestBits a.num.natAbs a.den := by
  have hvalue : (a.toRat.num.natAbs : ℚ) / a.toRat.den = a.num.natAbs / a.den := by
    rw [natAbs_div_den, natAbs_num_div_den]
  exact le_antisymm (nearestBits_mono a.toRat.pos ha hvalue.le)
    (nearestBits_mono ha a.toRat.pos hvalue.ge)

theorem nearestBits_lt_iff (ha : 0 < a.den) :
    nearestBits a.num.natAbs a.den < infinityBits ↔ |a.toRat| < overflow := by
  rw [nearestBits_lt_infinityBits_iff ha, natAbs_div_den]

/-- A ratio that does not overflow is rounded to a finite float. -/
theorem ofFloat_nearest (ha : 0 < a.den) (h : |a.toRat| < overflow) :
    ∃ m q, Binary.ofFloat a.nearest = .finite m q ∧ (m : ℚ) * 2 ^ q = nearestFloat a.toRat := by
  have hlt := (nearestBits_lt_iff ha).2 h
  obtain ⟨m, q, hfinite, hvalue⟩ := Binary.ofBits_signed (decide (a.num < 0)) hlt
  refine ⟨m, q, ?_, ?_⟩
  · have hinf : infinityBits = 2047 * 4503599627370496 := rfl
    have hlead : Binary.leadingBit = 4503599627370496 := rfl
    rw [Binary.ofFloat, nearest, nearestSigned, Float.toNat_toBits_ofBits, hfinite]
    · split <;> omega
    · rw [hlead]
      split <;> omega
  · rw [hvalue, nearestFloat, nearestBits_toRat ha]
    simp only [decide_eq_true_eq, toRat_neg_iff ha]

/-- One that overflows is rounded to an infinity. -/
theorem ofFloat_nearest_of_overflow (ha : 0 < a.den) (h : overflow ≤ |a.toRat|) :
    Binary.ofFloat a.nearest = .infinite (decide (a.num < 0)) := by
  have hbits : nearestBits a.num.natAbs a.den = infinityBits := by
    refine le_antisymm ?_ (not_lt.1 fun hlt => not_lt.2 h ((nearestBits_lt_iff ha).1 hlt))
    rw [nearestBits]
    split
    · exact Nat.zero_le _
    · exact min_le_right _ _
  rw [nearest, nearestSigned, hbits]
  by_cases hneg : a.num < 0
  · rw [decide_eq_true hneg]
    rfl
  · rw [decide_eq_false hneg]
    rfl

end Ratio

/-- The greater of two numbers is not rounded to the smaller float. -/
theorem nearestFloat_mono : Monotone nearestFloat := by
  intro r s h
  have hbits : ∀ {r s : ℚ}, |r| ≤ |s| →
      Ratio.nearestBits r.num.natAbs r.den ≤ Ratio.nearestBits s.num.natAbs s.den := by
    intro r s h
    refine Ratio.nearestBits_mono r.pos s.pos ?_
    rwa [Ratio.natAbs_num_div_den, Ratio.natAbs_num_div_den]
  rw [nearestFloat, nearestFloat]
  by_cases hs : s < 0
  · have hr := h.trans_lt hs
    rw [if_pos hr, if_pos hs]
    refine neg_le_neg (Binary.magnitude_mono (hbits ?_))
    rw [abs_of_neg hr, abs_of_neg hs]
    exact neg_le_neg h
  · rw [if_neg hs]
    have hpos := Binary.magnitude_nonneg (Ratio.nearestBits s.num.natAbs s.den)
    split
    · linarith [Binary.magnitude_nonneg (Ratio.nearestBits r.num.natAbs r.den)]
    · next hr =>
      refine Binary.magnitude_mono (hbits ?_)
      rwa [abs_of_nonneg (not_lt.1 hr), abs_of_nonneg (not_lt.1 hs)]

end AtomicCss

namespace Float

variable {x : Float} {m q : Int}

theorem abs_le_greatest (h : Binary.ofFloat x = .finite m q) :
    |(m : ℚ) * 2 ^ q| ≤ Ratio.greatest := by
  by_cases hm : m = 0
  · rw [hm, Int.cast_zero, zero_mul, abs_zero]
    exact Nat.cast_nonneg _
  · obtain ⟨hmagnitude, -⟩ := Binary.exists_magnitude x.toBits.toNat_lt h hm
    have hmantissa : (m.natAbs : ℚ) ≤ (2 ^ 53 - 1 : Nat) := by
      exact_mod_cast Nat.le_sub_one_of_lt hmagnitude.lt
    have hunit : (2 : ℚ) ^ q ≤ 2 ^ ((971 : Nat) : Int) :=
      zpow_le_zpow_right₀ one_le_two hmagnitude.le
    calc |(m : ℚ) * 2 ^ q| = m.natAbs * 2 ^ q := by
          rw [abs_mul, abs_of_pos (by positivity : (0 : ℚ) < 2 ^ q), Nat.cast_natAbs, Int.cast_abs]
      _ ≤ (2 ^ 53 - 1 : Nat) * 2 ^ ((971 : Nat) : Int) := by gcongr
      _ = Ratio.greatest := by
          rw [Ratio.greatest, Nat.cast_mul, Nat.cast_pow, zpow_natCast, Nat.cast_ofNat]

theorem abs_lt_overflow (h : Binary.ofFloat x = .finite m q) :
    |(m : ℚ) * 2 ^ q| < Ratio.overflow := by
  have hlt : Ratio.greatest < Ratio.overflow := by decide +kernel
  exact (abs_le_greatest h).trans_lt (by exact_mod_cast hlt)

theorem nearestFloat_value (h : Binary.ofFloat x = .finite m q) :
    nearestFloat (m * 2 ^ q) = m * 2 ^ q := by
  by_cases hm : m = 0
  · rw [hm, Int.cast_zero, zero_mul]
    decide +kernel
  · have hden : 0 < (Ratio.scaled m 2 q).den := Binary.den_pos_of_ratio? (b := .finite m q) rfl
    have hvalue := Ratio.toRat_scaled m q
    have hunit : (0 : ℚ) < 2 ^ q := by positivity
    have hself : (Ratio.scaled m 2 q).nearest = x := by
      have hsign : (Ratio.scaled m 2 q).num < 0 ↔ m < 0 := by
        rw [← Ratio.toRat_neg_iff hden, hvalue, mul_neg_iff]
        simp [hunit, hunit.not_gt]
      have habs : ((Ratio.scaled m 2 q).num.natAbs : ℚ) / (Ratio.scaled m 2 q).den
          = m.natAbs * 2 ^ q := by
        rw [Ratio.natAbs_div_den, hvalue, abs_mul, abs_of_pos hunit, Nat.cast_natAbs, Int.cast_abs]
      rw [Ratio.nearest, decide_eq_decide.2 hsign, ← Float.signBit_eq h hm]
      exact Ratio.nearestSigned_eq h hm (Float.nearestBits_magnitude h hm habs hden)
    obtain ⟨m', q', hfinite, heq⟩ := Ratio.ofFloat_nearest hden (hvalue ▸ abs_lt_overflow h)
    rw [hself, h] at hfinite
    cases hfinite
    rw [← hvalue]
    exact heq.symm.trans hvalue.symm

end Float

namespace AtomicCss

namespace Ratio

theorem floor_eq (a : Ratio) : a.floor = ⌊a.toRat⌋ :=
  (Rat.floor_intCast_div_natCast a.num a.den).symm

theorem toRat_add {a b : Ratio} (ha : 0 < a.den) (hb : 0 < b.den) :
    (a.add b).toRat = a.toRat + b.toRat := by
  have ha' : (a.den : ℚ) ≠ 0 := by exact_mod_cast ha.ne'
  have hb' : (b.den : ℚ) ≠ 0 := by exact_mod_cast hb.ne'
  rw [toRat, toRat, toRat, div_add_div _ _ ha' hb', add]
  push_cast
  ring

end Ratio

namespace Number

variable {n : Number}

theorem toFloat_of_lt (h : n.IsReal) (hlt : |n.toRat| < Ratio.overflow) : ∃ x m q,
    n.toFloat = .ok x ∧ Binary.ofFloat x = .finite m q
      ∧ (m : ℚ) * 2 ^ q = nearestFloat n.toRat := by
  cases n with
  | int k =>
    obtain ⟨m, q, hfinite, hvalue⟩ := Ratio.ofFloat_nearest (a := .ofInt k) Nat.one_pos hlt
    refine ⟨_, m, q, ?_, hfinite, hvalue⟩
    exact if_pos (Float.isFinite_of_ofFloat hfinite)
  | float x =>
    obtain ⟨m, q, hfinite⟩ := Float.exists_of_isFinite h
    refine ⟨x, m, q, rfl, hfinite, ?_⟩
    rw [toRat_float hfinite, Float.nearestFloat_value hfinite]

theorem toFloat_of_overflow (h : n.IsReal) (hge : Ratio.overflow ≤ |n.toRat|) :
    n.toFloat = .error .overflow := by
  cases n with
  | int k =>
    have hinfinite := Ratio.ofFloat_nearest_of_overflow (a := .ofInt k) Nat.one_pos hge
    have hfinite : (Ratio.ofInt k).nearest.isFinite ≠ true := by
      intro hfinite
      obtain ⟨m, q, hfinite⟩ := Float.exists_of_isFinite hfinite
      rw [hfinite] at hinfinite
      cases hinfinite
    exact if_neg hfinite
  | float x =>
    obtain ⟨m, q, hfinite⟩ := Float.exists_of_isFinite h
    rw [toRat_float hfinite] at hge
    exact absurd (Float.abs_lt_overflow hfinite) (not_lt.2 hge)

/-- An integer that has a nearest float is not too long to be written. -/
theorem isShort_of_toFloat {k : Int} {x : Float} (h : (Number.int k).toFloat = .ok x) :
    Numeral.IsShort k := by
  have hlt : |(Ratio.ofInt k).toRat| < Ratio.overflow := by
    by_contra hge
    rw [toFloat_of_overflow (n := .int k) trivial (not_lt.1 hge)] at h
    cases h
  have hlimit : Ratio.overflow ≤ 10 ^ Numeral.digitLimit := by decide +kernel
  rw [← Ratio.natAbs_div_den, Ratio.ofInt, Nat.cast_one, div_one] at hlt
  rw [Numeral.IsShort, Nat.length_toDigits_le_iff (by decide) (by decide)]
  exact lt_of_lt_of_le (by exact_mod_cast hlt) hlimit

theorem isWritable_of_toFloat {x : Float} (h : n.toFloat = .ok x) :
    (Value.number n).IsWritable := by
  cases n with
  | int k => exact List.forall_mem_singleton.2 (isShort_of_toFloat h)
  | float x => exact List.forall_mem_nil _

/-- A number is rounded to a float, one half is added, and the sum is rounded to a float and
down. -/
theorem roundHalfUp_of_lt (h : n.IsReal) (hlt : |n.toRat| < Ratio.overflow) :
    n.roundHalfUp = .ok ⌊nearestFloat (nearestFloat n.toRat + 1 / 2)⌋ := by
  obtain ⟨x, m, q, hx, hfinite, hvalue⟩ := toFloat_of_lt h hlt
  have hscaled : 0 < (Ratio.scaled m 2 q).den :=
    Binary.den_pos_of_ratio? (b := .finite m q) rfl
  have hsum : ((Ratio.scaled m 2 q).add ⟨1, 2⟩).toRat = nearestFloat n.toRat + 1 / 2 := by
    rw [Ratio.toRat_add hscaled Nat.two_pos, Ratio.toRat_scaled, hvalue, Ratio.toRat]
    norm_num
  have hroom : |((Ratio.scaled m 2 q).add ⟨1, 2⟩).toRat| < Ratio.overflow := by
    have hnext : Ratio.greatest + 1 ≤ Ratio.overflow := by decide +kernel
    have hnext : (Ratio.greatest : ℚ) + 1 ≤ Ratio.overflow := by exact_mod_cast hnext
    have hle := Float.abs_le_greatest hfinite
    rw [hvalue] at hle
    rw [hsum]
    calc |nearestFloat n.toRat + 1 / 2| ≤ |nearestFloat n.toRat| + |1 / 2| := abs_add_le _ _
      _ = |nearestFloat n.toRat| + 1 / 2 := by norm_num
      _ < Ratio.overflow := by linarith
  obtain ⟨m', q', hfinite', hvalue'⟩ :=
    Ratio.ofFloat_nearest (Nat.mul_pos hscaled Nat.two_pos) hroom
  have hratio : ((Ratio.scaled m 2 q).add ⟨1, 2⟩).nearest.ratio? = some (.scaled m' 2 q') := by
    rw [Float.ratio?, hfinite', Binary.ratio?]
  rw [← hsum, ← hvalue', ← Ratio.toRat_scaled, ← Ratio.floor_eq]
  simp only [roundHalfUp, hx, hfinite, hratio, bind, Except.bind, pure, Except.pure]

theorem roundHalfUp_of_overflow (h : n.IsReal) (hge : Ratio.overflow ≤ |n.toRat|) :
    n.roundHalfUp = .error .overflow := by
  rw [roundHalfUp, toFloat_of_overflow h hge]
  rfl

theorem abs_lt_overflow (h : n.IsReal) {k : Int} (hk : n.roundHalfUp = .ok k) :
    |n.toRat| < Ratio.overflow := by
  by_contra hge
  rw [roundHalfUp_of_overflow h (not_lt.1 hge)] at hk
  cases hk

/-- The greater of two numbers is not rounded to the smaller integer. -/
theorem roundHalfUp_mono {m n : Number} (hm : m.IsReal) (hn : n.IsReal) (h : m.toRat ≤ n.toRat)
    {j k : Int} (hj : m.roundHalfUp = .ok j) (hk : n.roundHalfUp = .ok k) : j ≤ k := by
  rw [roundHalfUp_of_lt hm (abs_lt_overflow hm hj)] at hj
  rw [roundHalfUp_of_lt hn (abs_lt_overflow hn hk)] at hk
  cases hj
  cases hk
  exact Int.floor_mono (nearestFloat_mono (add_le_add_left (nearestFloat_mono h) _))

end Number

end AtomicCss

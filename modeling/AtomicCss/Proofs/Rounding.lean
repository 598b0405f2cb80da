import AtomicCss.Number.Numeral
import AtomicCss.Proofs.WholeFloats

/-!
# Rounding decimals to floats

The numbers that round to a float form an interval, which ends halfway to the neighbours of the
float. Rounding any quotient of this interval gives the bits of the float. The shortest decimal of
a float is looked for in the interval only, so it is read back as the float.
-/
namespace AtomicCss

namespace Ratio

theorem den_scaled_pos {base : Nat} (hbase : 0 < base) (n e : Int) : 0 < (scaled n base e).den := by
  rw [scaled]
  split
  · exact Nat.one_pos
  · exact Nat.pow_pos hbase

theorem natAbs_scaled {base : Nat} (hbase : 0 < base) (n : Nat) (e : Int) :
    ((scaled n base e).num.natAbs : ℚ) / (scaled n base e).den = n * (base : ℚ) ^ e := by
  have hne : (base : ℚ) ≠ 0 := by exact_mod_cast hbase.ne'
  rw [scaled]
  split
  · next he =>
    obtain ⟨k, rfl⟩ := Int.eq_ofNat_of_zero_le he
    simp [Int.natAbs_mul, Int.natAbs_pow]
  · next he =>
    obtain ⟨k, hk⟩ := Int.eq_ofNat_of_zero_le (show 0 ≤ -e by omega)
    obtain rfl : e = -(k : Int) := by omega
    simp [zpow_neg, div_eq_mul_inv]

/-- A quotient within half a unit of an integer rounds to the integer. A tie does only if the
integer is even. -/
theorem roundEven_eq {n d m : Nat} (hd : 0 < d) (low : (m : ℚ) - 1 / 2 ≤ n / d)
    (high : (n : ℚ) / d ≤ m + 1 / 2)
    (odd : m % 2 = 1 → (m : ℚ) - 1 / 2 < n / d ∧ (n : ℚ) / d < m + 1 / 2) :
    roundEven n d = m := by
  have hpos : (0 : ℚ) < d := by exact_mod_cast hd
  have hlow : 2 * m * d ≤ 2 * n + d := by
    rw [le_div_iff₀ hpos] at low
    have : (2 * m * d : ℚ) ≤ 2 * n + d := by linarith
    exact_mod_cast this
  have hhigh : 2 * n ≤ 2 * m * d + d := by
    rw [div_le_iff₀ hpos] at high
    have : (2 * n : ℚ) ≤ 2 * m * d + d := by linarith
    exact_mod_cast this
  have hodd : m % 2 = 1 → 2 * m * d < 2 * n + d ∧ 2 * n < 2 * m * d + d := by
    intro h
    obtain ⟨hlow, hhigh⟩ := odd h
    rw [lt_div_iff₀ hpos] at hlow
    rw [div_lt_iff₀ hpos] at hhigh
    have hleft : (2 * m * d : ℚ) < 2 * n + d := by linarith
    have hright : (2 * n : ℚ) < 2 * m * d + d := by linarith
    exact ⟨by exact_mod_cast hleft, by exact_mod_cast hright⟩
  have hsplit : n = d * (n / d) + n % d := (Nat.div_add_mod n d).symm
  have hrest : n % d < d := Nat.mod_lt n hd
  -- The quotient is the integer, or one less.
  have hquotient : n / d = m ∨ n / d + 1 = m := by
    have hle : n / d < m + 1 := (Nat.div_lt_iff_lt_mul hd).2 (by nlinarith)
    have hge : m ≤ n / d + 1 := by
      by_contra hlt
      have : d * (n / d + 2) ≤ d * m := Nat.mul_le_mul_left d (by omega)
      nlinarith
    omega
  rw [roundEven]
  generalize n / d = k at hsplit hquotient
  generalize n % d = r at hsplit hrest
  rcases hquotient with rfl | rfl
  · have hprod : 2 * k * d = 2 * (d * k) := by ring
    rw [if_neg (by omega)]
  · have hprod : 2 * (k + 1) * d = 2 * (d * k) + 2 * d := by ring
    rw [if_pos (by omega)]

variable {n d : Nat}

theorem zpow_log2_le (hn : 0 < n) : (2 : ℚ) ^ (n.log2 : Int) ≤ n := by
  have := Nat.log2_self_le hn.ne'
  exact_mod_cast this

theorem lt_zpow_log2 (n : Nat) : (n : ℚ) < 2 ^ ((n.log2 : Int) + 1) := by
  have := @Nat.lt_log2_self n
  exact_mod_cast this

/-- A power of two is compared with a quotient in integers. -/
theorem zpow_le_div_iff (hd : 0 < d) (g : Int) :
    (if 0 ≤ g then decide (d * Nat.pow 2 g.toNat ≤ n)
      else decide (d ≤ n * Nat.pow 2 (-g).toNat)) = true ↔ (2 : ℚ) ^ g ≤ n / d := by
  have hpos : (0 : ℚ) < d := by exact_mod_cast hd
  rw [le_div_iff₀ hpos]
  split
  · next hg =>
    obtain ⟨k, rfl⟩ := Int.eq_ofNat_of_zero_le hg
    rw [decide_eq_true_iff, mul_comm d]
    simp only [Int.toNat_natCast, Nat.pow_eq, zpow_natCast]
    exact_mod_cast Iff.rfl
  · next hg =>
    obtain ⟨k, hk⟩ := Int.eq_ofNat_of_zero_le (show 0 ≤ -g by omega)
    obtain rfl : g = -(k : Int) := by omega
    rw [decide_eq_true_iff, zpow_neg, zpow_natCast, inv_mul_le_iff₀ (by positivity), mul_comm]
    simp only [neg_neg, Int.toNat_natCast, Nat.pow_eq]
    exact_mod_cast Iff.rfl

/-- The difference of the binary logarithms is the binade of a quotient, or one more. -/
theorem log2_sub_bounds (hn : 0 < n) (hd : 0 < d) :
    (2 : ℚ) ^ ((n.log2 : Int) - d.log2 - 1) ≤ n / d
      ∧ (n : ℚ) / d < 2 ^ ((n.log2 : Int) - d.log2 + 1) := by
  have hpos : (0 : ℚ) < d := by exact_mod_cast hd
  constructor
  · rw [le_div_iff₀ hpos]
    calc (2 : ℚ) ^ ((n.log2 : Int) - d.log2 - 1) * d
        ≤ 2 ^ ((n.log2 : Int) - d.log2 - 1) * 2 ^ ((d.log2 : Int) + 1) := by
          have := (lt_zpow_log2 d).le
          gcongr
      _ = 2 ^ (n.log2 : Int) := by
        rw [← zpow_add₀ two_ne_zero]
        congr 1
        ring
      _ ≤ n := zpow_log2_le hn
  · rw [div_lt_iff₀ hpos]
    calc (n : ℚ) < 2 ^ ((n.log2 : Int) + 1) := lt_zpow_log2 n
      _ = 2 ^ ((n.log2 : Int) - d.log2 + 1) * 2 ^ (d.log2 : Int) := by
        rw [← zpow_add₀ two_ne_zero]
        congr 1
        ring
      _ ≤ 2 ^ ((n.log2 : Int) - d.log2 + 1) * d := by
        have := zpow_log2_le hd
        gcongr

theorem binade_spec (hn : 0 < n) (hd : 0 < d) :
    (2 : ℚ) ^ binade n d ≤ n / d ∧ (n : ℚ) / d < 2 ^ (binade n d + 1) := by
  obtain ⟨hlow, hhigh⟩ := log2_sub_bounds hn hd
  have hbinade : binade n d
      = if (2 : ℚ) ^ ((n.log2 : Int) - d.log2) ≤ n / d then (n.log2 : Int) - d.log2
        else (n.log2 : Int) - d.log2 - 1 := if_congr (zpow_le_div_iff hd _) rfl rfl
  rw [hbinade]
  split
  · next h => exact ⟨h, hhigh⟩
  · next h =>
    rw [sub_add_cancel]
    exact ⟨hlow, lt_of_not_ge h⟩

theorem binade_eq {g : Int} (hn : 0 < n) (hd : 0 < d) (low : (2 : ℚ) ^ g ≤ n / d)
    (high : (n : ℚ) / d < 2 ^ (g + 1)) : binade n d = g := by
  obtain ⟨hlow, hhigh⟩ := binade_spec hn hd
  have hle : binade n d < g + 1 :=
    (zpow_lt_zpow_iff_right₀ one_lt_two).1 (hlow.trans_lt high)
  have hge : g < binade n d + 1 :=
    (zpow_lt_zpow_iff_right₀ one_lt_two).1 (low.trans_lt hhigh)
  omega

theorem binade_lt {g : Int} (hn : 0 < n) (hd : 0 < d) (high : (n : ℚ) / d < 2 ^ g) :
    binade n d < g :=
  (zpow_lt_zpow_iff_right₀ one_lt_two).1 ((binade_spec hn hd).1.trans_lt high)

/-- The mantissa is the quotient rounded in the unit of the binade. -/
theorem nearestBits_eq {e : Int} {m : Nat} (hn : 0 < n) (hd : 0 < d)
    (he : max (binade n d - 52) (-1074) = e) (low : (m : ℚ) - 1 / 2 ≤ n / d / 2 ^ e)
    (high : (n : ℚ) / d / 2 ^ e ≤ m + 1 / 2)
    (odd : m % 2 = 1 → (m : ℚ) - 1 / 2 < n / d / 2 ^ e ∧ (n : ℚ) / d / 2 ^ e < m + 1 / 2) :
    nearestBits n d = min ((e + 1074).toNat * Binary.leadingBit + m) infinityBits := by
  have hne : ¬(n = 0 ∨ d = 0) := by omega
  simp only [nearestBits, hne, he, if_false]
  congr 2
  split
  · next h =>
    obtain ⟨k, rfl⟩ := Int.eq_ofNat_of_zero_le h
    have hunit : (n : ℚ) / d / 2 ^ (k : Int) = n / (d * Nat.pow 2 k : Nat) := by
      simp [div_div]
    rw [hunit] at low high odd
    exact roundEven_eq (Nat.mul_pos hd (Nat.two_pow_pos k)) low high odd
  · next h =>
    obtain ⟨k, hk⟩ := Int.eq_ofNat_of_zero_le (show 0 ≤ -e by omega)
    obtain rfl : e = -(k : Int) := by omega
    have hunit : (n : ℚ) / d / 2 ^ (-(k : Int)) = (n * Nat.pow 2 k : Nat) / d := by
      simp only [zpow_neg, zpow_natCast, div_inv_eq_mul, Nat.pow_eq]
      push_cast
      ring
    rw [hunit] at low high odd
    rw [neg_neg, Int.toNat_natCast]
    exact roundEven_eq hd low high odd

end Ratio

/-- The mantissas and exponents of positive floats. -/
structure Binary.IsMagnitude (m : Nat) (q : Int) : Prop where
  pos : 0 < m
  lt : m < 2 * leadingBit
  least : -1074 ≤ q
  full : -1074 < q → leadingBit ≤ m
  le : q ≤ 971

namespace Binary

theorem leadingBit_eq_zpow : (leadingBit : ℚ) = 2 ^ (52 : Int) := by norm_num [leadingBit]

theorem IsMagnitude.add_one_le {m : Nat} {q : Int} (hm : IsMagnitude m q) :
    (m : ℚ) + 1 ≤ 2 ^ (53 : Int) := by
  have : m + 1 ≤ 2 ^ 53 := hm.lt
  exact_mod_cast this

theorem IsMagnitude.bits_lt {m : Nat} {q : Int} (hm : IsMagnitude m q) :
    (q + 1074).toNat * leadingBit + m < Ratio.infinityBits := by
  have hq := hm.le
  have hlt := hm.lt
  have hinf : Ratio.infinityBits = 2047 * 4503599627370496 := rfl
  have hlead : leadingBit = 4503599627370496 := rfl
  rw [hlead] at hlt ⊢
  omega

end Binary

namespace Decimal.Interval

def Contains (i : Interval) (r : ℚ) : Prop :=
  if i.closed then i.low * 2 ^ i.exponent ≤ r ∧ r ≤ i.high * 2 ^ i.exponent
  else i.low * 2 ^ i.exponent < r ∧ r < i.high * 2 ^ i.exponent

variable {m : Nat} {q : Int} {r : ℚ}

theorem Contains.le {i : Interval} (h : i.Contains r) :
    i.low * 2 ^ i.exponent ≤ r ∧ r ≤ i.high * 2 ^ i.exponent := by
  rw [Contains] at h
  split at h
  · exact h
  · exact ⟨h.1.le, h.2.le⟩

theorem Contains.lt {i : Interval} (h : i.Contains r) (hopen : i.closed = false) :
    i.low * 2 ^ i.exponent < r ∧ r < i.high * 2 ^ i.exponent := by
  rwa [Contains, if_neg (by simp [hopen])] at h

/-- A number of the interval in units of the last digit of the mantissa. -/
theorem Contains.scaled (hm : 0 < m) (h : (around m q).Contains r) :
    (m : ℚ) - 1 / 2 ≤ r / 2 ^ q ∧ r / 2 ^ q ≤ m + 1 / 2
      ∧ (m % 2 = 1 → (m : ℚ) - 1 / 2 < r / 2 ^ q ∧ r / 2 ^ q < m + 1 / 2)
      ∧ (m = Binary.leadingBit → -1074 < q → (m : ℚ) - 1 / 4 ≤ r / 2 ^ q) := by
  have hpos : (0 : ℚ) < 2 ^ q := by positivity
  have hexponent : (2 : ℚ) ^ (around m q).exponent = 2 ^ q / 4 := by
    change (2 : ℚ) ^ (q - 2) = _
    rw [zpow_sub₀ two_ne_zero]
    norm_num
  have hhigh : ((around m q).high : ℚ) = 4 * m + 2 := by
    simp [around]
  have hlow : (4 * m - 2 : ℚ) ≤ (around m q).low := by
    have : 4 * m ≤ (around m q).low + 2 := by
      simp only [around]
      split <;> omega
    have : (4 * m : ℚ) ≤ (around m q).low + 2 := by exact_mod_cast this
    linarith
  refine ⟨?_, ?_, fun hodd => ?_, fun hlead hq => ?_⟩
  · rw [le_div_iff₀ hpos]
    have := h.le.1
    rw [hexponent] at this
    nlinarith
  · rw [div_le_iff₀ hpos]
    have := h.le.2
    rw [hexponent, hhigh] at this
    linarith
  · have hopen : (around m q).closed = false := by simp [around, hodd]
    obtain ⟨hleft, hright⟩ := h.lt hopen
    rw [hexponent] at hleft hright
    rw [hhigh] at hright
    rw [lt_div_iff₀ hpos, div_lt_iff₀ hpos]
    exact ⟨by nlinarith, by linarith⟩
  · have hnarrow : (around m q).low + 1 = 4 * m := by
      simp only [around, hlead, hq, and_self, if_true]
      decide
    have hlow : ((around m q).low : ℚ) = 4 * m - 1 := by
      have : ((around m q).low : ℚ) + 1 = 4 * m := by exact_mod_cast hnarrow
      linarith
    have := h.le.1
    rw [hexponent, hlow] at this
    rw [le_div_iff₀ hpos]
    linarith

/-- The numbers that round to a float are below the end of its binade. -/
theorem Contains.lt_zpow (hm : Binary.IsMagnitude m q) (h : (around m q).Contains r) :
    r < 2 ^ (q + 53) := by
  have hhigh := (h.scaled hm.pos).2.1
  have hm' := hm.add_one_le
  have hlt : r / 2 ^ q < 2 ^ (53 : Int) := by linarith
  rwa [div_lt_iff₀ (by positivity), ← zpow_add₀ two_ne_zero, add_comm] at hlt

theorem Contains.zpow_le (hm : 0 < m) (h : (around m q).Contains r) : 2 ^ (q - 1) ≤ r := by
  have hlow := (h.scaled hm).1
  have hone : (1 : ℚ) ≤ m := by exact_mod_cast hm
  have hle : (2 : ℚ) ^ (-1 : Int) ≤ r / 2 ^ q := by
    rw [zpow_neg_one]
    linarith
  rwa [le_div_iff₀ (by positivity), ← zpow_add₀ two_ne_zero, neg_add_eq_sub] at hle

end Decimal.Interval

namespace Ratio

open Decimal Interval

variable {m n d : Nat} {q : Int}

/-- In the binade of a float, and for both below the least one, the unit of the float is used. -/
theorem nearestBits_of_zpow_le (hm : Binary.IsMagnitude m q) (hn : 0 < n) (hd : 0 < d)
    (h : (around m q).Contains ((n : ℚ) / d))
    (hfull : q = -1074 ∨ (2 : ℚ) ^ (52 : Int) ≤ n / d / 2 ^ q) :
    nearestBits n d = (q + 1074).toNat * Binary.leadingBit + m := by
  obtain ⟨hlow, hhigh, hodd, -⟩ := h.scaled hm.pos
  have hlt := h.lt_zpow hm
  have he : max (binade n d - 52) (-1074) = q := by
    rcases hfull with rfl | hfull
    · have := binade_lt hn hd hlt
      omega
    · rw [le_div_iff₀ (by positivity), ← zpow_add₀ two_ne_zero, add_comm] at hfull
      have hbinade := binade_eq hn hd hfull (by rwa [add_assoc])
      have := hm.least
      omega
  rw [nearestBits_eq hn hd he hlow hhigh hodd, Nat.min_eq_left hm.bits_lt.le]

/-- Below the binade of a float the unit is half as great. Only a quotient next to a power of two
is rounded up to a float from there. -/
theorem nearestBits_of_lt_zpow (hm : Binary.IsMagnitude m q) (hn : 0 < n) (hd : 0 < d)
    (h : (around m q).Contains ((n : ℚ) / d)) (hq : -1074 < q)
    (hbelow : (n : ℚ) / d / 2 ^ q < 2 ^ (52 : Int)) :
    nearestBits n d = (q + 1074).toNat * Binary.leadingBit + m := by
  have hlead := Binary.leadingBit_eq_zpow
  have hpos : (0 : ℚ) < 2 ^ q := by positivity
  obtain ⟨hlow, -, -, hnarrow⟩ := h.scaled hm.pos
  have hmlead : m = Binary.leadingBit := by
    refine le_antisymm ?_ (hm.full hq)
    by_contra hgt
    have : (Binary.leadingBit : ℚ) + 1 ≤ m := by exact_mod_cast not_le.1 hgt
    linarith
  replace hlow := hnarrow hmlead hq
  rw [hmlead, hlead] at hlow
  have he : max (binade n d - 52) (-1074) = q - 1 := by
    have hge : (2 : ℚ) ^ (51 : Int) ≤ n / d / 2 ^ q := le_trans (by norm_num) hlow
    rw [le_div_iff₀ hpos, ← zpow_add₀ two_ne_zero, add_comm] at hge
    have hlt := hbelow
    rw [div_lt_iff₀ hpos, ← zpow_add₀ two_ne_zero, add_comm,
      show q + 52 = q + 51 + 1 by omega] at hlt
    have := binade_eq hn hd hge hlt
    omega
  have hhalf : (n : ℚ) / d / 2 ^ (q - 1) = 2 * (n / d / 2 ^ q) := by
    rw [zpow_sub_one₀ two_ne_zero]
    field_simp
  -- The mantissa is rounded up to twice the leading bit, which carries into the exponent.
  have hcarry : (q - 1 + 1074).toNat * Binary.leadingBit + 2 * Binary.leadingBit
      = (q + 1074).toNat * Binary.leadingBit + m := by
    have hlead : Binary.leadingBit = 4503599627370496 := rfl
    rw [hmlead, hlead]
    omega
  have htwice : ((2 * Binary.leadingBit : Nat) : ℚ) = 2 * 2 ^ (52 : Int) := by
    rw [Nat.cast_mul, hlead, Nat.cast_ofNat]
  rw [nearestBits_eq (m := 2 * Binary.leadingBit) hn hd he, hcarry,
    Nat.min_eq_left hm.bits_lt.le]
  · rw [hhalf, htwice]
    linarith
  · rw [hhalf, htwice]
    linarith
  · exact fun hodd => absurd hodd (by decide)

/-- A quotient that lies in the rounding interval of a float rounds to the float. -/
theorem nearestBits_of_contains (hm : Binary.IsMagnitude m q) (hn : 0 < n) (hd : 0 < d)
    (h : (around m q).Contains ((n : ℚ) / d)) :
    nearestBits n d = (q + 1074).toNat * Binary.leadingBit + m := by
  by_cases hfull : q = -1074 ∨ (2 : ℚ) ^ (52 : Int) ≤ n / d / 2 ^ q
  · exact nearestBits_of_zpow_le hm hn hd h hfull
  · obtain ⟨hq, hbelow⟩ := not_or.1 hfull
    exact nearestBits_of_lt_zpow hm hn hd h (lt_of_le_of_ne hm.least (Ne.symm hq))
      (not_le.1 hbelow)

end Ratio

namespace Binary

/-- The bits of a float other than a zero are its sign, and its magnitude above. -/
theorem exists_magnitude {bits : Nat} {m q : Int} (hbits : bits < 2 * 0x8000000000000000)
    (h : ofBits bits = .finite m q) (hm : m ≠ 0) :
    IsMagnitude m.natAbs q
      ∧ bits = (if 0x8000000000000000 ≤ bits then 0x8000000000000000 else 0)
        + ((q + 1074).toNat * leadingBit + m.natAbs) := by
  have hlead : leadingBit = 4503599627370496 := rfl
  simp only [ofBits] at h
  split at h
  · split at h <;> cases h
  next hfield =>
  have hmod : bits % leadingBit < leadingBit := Nat.mod_lt _ (by decide)
  generalize hf : bits % leadingBit = f at h hmod
  generalize he : bits / leadingBit % 2048 = e at h hfield
  rw [hlead] at h hf he hmod
  simp only [Binary.finite.injEq] at h
  obtain ⟨hmantissa, hexponent⟩ := h
  have hnat : m.natAbs = if e = 0 then f else 4503599627370496 + f := by
    split at hmantissa <;> omega
  have hsplit : bits = (if 0x8000000000000000 ≤ bits then 0x8000000000000000 else 0)
      + (e * 4503599627370496 + f) := by
    split <;> omega
  rw [hlead]
  by_cases hzero : e = 0
  · rw [if_pos hzero] at hnat hexponent
    have hmagnitude :
        (q + 1074).toNat * 4503599627370496 + m.natAbs = e * 4503599627370496 + f := by omega
    rw [hmagnitude]
    exact ⟨⟨by omega, by omega, by omega, by omega, by omega⟩, hsplit⟩
  · rw [if_neg hzero] at hnat hexponent
    have hmagnitude :
        (q + 1074).toNat * 4503599627370496 + m.natAbs = e * 4503599627370496 + f := by omega
    rw [hmagnitude]
    exact ⟨⟨by omega, by omega, by omega, by omega, by omega⟩, hsplit⟩

end Binary

namespace Ratio

/-- The float that has the sign and the magnitude of a float is this float. -/
theorem nearestSigned_eq {x : Float} {m q : Int} (h : Binary.ofFloat x = .finite m q) (hm : m ≠ 0)
    {a : Ratio} (ha : nearestBits a.num.natAbs a.den
      = (q + 1074).toNat * Binary.leadingBit + m.natAbs) :
    nearestSigned x.signBit a = x := by
  have hbits := (Binary.exists_magnitude x.toBits.toNat_lt h hm).2
  have hself : Float.ofBits (UInt64.ofNat x.toBits.toNat) = x := by
    rw [UInt64.ofNat_toNat, Float.ofBits_toBits]
  rw [nearestSigned, ha, Float.signBit]
  by_cases hneg : 0x8000000000000000 ≤ x.toBits.toNat
  · rw [if_pos hneg] at hbits
    simpa only [hneg, decide_true, if_true, ← hbits] using hself
  · rw [if_neg hneg, Nat.zero_add] at hbits
    simpa only [hneg, decide_false, Bool.false_eq_true, if_false, ← hbits] using hself

end Ratio

namespace Decimal

def Scientific.toRat (d : Scientific) : ℚ := d.coefficient * 10 ^ d.exponent

namespace Interval

theorem pow_toNat {b : ℚ} (hb : b ≠ 0) (e : Int) : b ^ e.toNat = b ^ e * b ^ (-e).toNat := by
  rw [← zpow_natCast, ← zpow_natCast, ← zpow_add₀ hb]
  congr 1
  omega

/-- A multiple of a power of ten is compared with the ends of an interval in a common unit. -/
theorem contains_iff (i : Interval) (d : Nat) (k : Int) :
    i.Contains (d * 10 ^ k)
      ↔ if i.closed then
          i.low * (2 ^ i.exponent.toNat * 10 ^ (-k).toNat)
              ≤ d * (2 ^ (-i.exponent).toNat * 10 ^ k.toNat)
            ∧ d * (2 ^ (-i.exponent).toNat * 10 ^ k.toNat)
              ≤ i.high * (2 ^ i.exponent.toNat * 10 ^ (-k).toNat)
        else
          i.low * (2 ^ i.exponent.toNat * 10 ^ (-k).toNat)
              < d * (2 ^ (-i.exponent).toNat * 10 ^ k.toNat)
            ∧ d * (2 ^ (-i.exponent).toNat * 10 ^ k.toNat)
              < i.high * (2 ^ i.exponent.toNat * 10 ^ (-k).toNat) := by
  have hunit : (0 : ℚ) < 2 ^ (-i.exponent).toNat * 10 ^ (-k).toNat := by positivity
  have hend : ∀ n : Nat, ((n * (2 ^ i.exponent.toNat * 10 ^ (-k).toNat) : Nat) : ℚ)
      = n * 2 ^ i.exponent * (2 ^ (-i.exponent).toNat * 10 ^ (-k).toNat) := by
    intro n
    push_cast
    rw [pow_toNat two_ne_zero]
    ring
  have hgrid : ((d * (2 ^ (-i.exponent).toNat * 10 ^ k.toNat) : Nat) : ℚ)
      = d * 10 ^ k * (2 ^ (-i.exponent).toNat * 10 ^ (-k).toNat) := by
    push_cast
    rw [pow_toNat (by norm_num : (10 : ℚ) ≠ 0) k]
    ring
  rw [Contains]
  by_cases hclosed : i.closed = true
  · rw [if_pos hclosed, if_pos hclosed, ← Nat.cast_le (α := ℚ), ← Nat.cast_le (α := ℚ), hend, hend,
      hgrid, mul_le_mul_iff_left₀ hunit, mul_le_mul_iff_left₀ hunit]
  · rw [if_neg hclosed, if_neg hclosed, ← Nat.cast_lt (α := ℚ), ← Nat.cast_lt (α := ℚ), hend, hend,
      hgrid, mul_lt_mul_iff_left₀ hunit, mul_lt_mul_iff_left₀ hunit]

/-- A decimal found on a grid lies in the interval. -/
theorem contains_of_onGrid? {i : Interval} {k : Int} {d : Nat} (h : i.onGrid? k = some d) :
    0 < d ∧ i.Contains (d * 10 ^ k) := by
  have hbool : ∀ c : Nat, (if i.closed = true then
        decide (i.low * (2 ^ i.exponent.toNat * 10 ^ (-k).toNat)
              ≤ c * (2 ^ (-i.exponent).toNat * 10 ^ k.toNat)
            ∧ c * (2 ^ (-i.exponent).toNat * 10 ^ k.toNat)
              ≤ i.high * (2 ^ i.exponent.toNat * 10 ^ (-k).toNat))
      else decide (i.low * (2 ^ i.exponent.toNat * 10 ^ (-k).toNat)
              < c * (2 ^ (-i.exponent).toNat * 10 ^ k.toNat)
            ∧ c * (2 ^ (-i.exponent).toNat * 10 ^ k.toNat)
              < i.high * (2 ^ i.exponent.toNat * 10 ^ (-k).toNat))) = true
      ↔ i.Contains (c * 10 ^ k) := by
    intro c
    rw [contains_iff]
    split <;> simp only [decide_eq_true_eq]
  simp only [onGrid?, Nat.pow_eq] at h
  split at h
  · next hbelow habove =>
    rw [Bool.and_eq_true, hbool] at hbelow
    rw [hbool] at habove
    have hpos := Nat.pos_of_ne_zero (bne_iff_ne.1 hbelow.2)
    split at h
    · exact Option.some.inj h ▸ ⟨hpos, hbelow.1⟩
    · exact Option.some.inj h ▸ ⟨Nat.succ_pos _, habove⟩
    · split at h
      · exact Option.some.inj h ▸ ⟨hpos, hbelow.1⟩
      · exact Option.some.inj h ▸ ⟨Nat.succ_pos _, habove⟩
  · next hbelow _ =>
    rw [Bool.and_eq_true, hbool] at hbelow
    exact Option.some.inj h ▸ ⟨Nat.pos_of_ne_zero (bne_iff_ne.1 hbelow.2), hbelow.1⟩
  · next habove =>
    rw [hbool] at habove
    exact Option.some.inj h ▸ ⟨Nat.succ_pos _, habove⟩
  · cases h

theorem contains_of_search {i : Interval} {n : Nat} {k : Int} {d : Scientific}
    (h : i.search n k = some d) : 0 < d.coefficient ∧ i.Contains d.toRat := by
  induction n generalizing k with
  | zero => cases h
  | succ n ih =>
    rw [search] at h
    split at h
    · next hgrid =>
      cases h
      exact contains_of_onGrid? hgrid
    · exact ih h

theorem contains_value {m : Nat} (hm : 0 < m) (q : Int) : (around m q).Contains (m * 2 ^ q) := by
  have hpos : (0 : ℚ) < 2 ^ (q - 2) := by positivity
  have hvalue : (m : ℚ) * 2 ^ q = (4 * m : Nat) * 2 ^ (q - 2) := by
    rw [zpow_sub₀ two_ne_zero]
    push_cast
    ring
  have hlow : (around m q).low < 4 * m := by
    simp only [around]
    split <;> omega
  have hleft : ((around m q).low : ℚ) * 2 ^ (q - 2) < (4 * m : Nat) * 2 ^ (q - 2) :=
    mul_lt_mul_of_pos_right (by exact_mod_cast hlow) hpos
  have hright : ((4 * m : Nat) : ℚ) * 2 ^ (q - 2) < (4 * m + 2 : Nat) * 2 ^ (q - 2) :=
    mul_lt_mul_of_pos_right (by exact_mod_cast (by omega)) hpos
  rw [hvalue, Contains]
  split
  · exact ⟨hleft.le, hright.le⟩
  · exact ⟨hleft, hright⟩

end Interval

/-- The shortest decimal of a positive float lies in the rounding interval of the float. -/
theorem contains_shortest {m : Nat} (hm : 0 < m) (q : Int) :
    0 < (shortest m q).coefficient ∧ (Interval.around m q).Contains (shortest m q).toRat := by
  rw [shortest]
  cases hsearch : (Interval.around m q).search 24 (((m.log2 : Int) + q) * 30103 / 100000 + 2) with
  | some d => exact Interval.contains_of_search hsearch
  | none =>
    refine ⟨Nat.mul_pos (Nat.mul_pos hm (Nat.pow_pos Nat.two_pos)) (Nat.pow_pos (by decide)), ?_⟩
    have hexact : Scientific.toRat ⟨m * Nat.pow 2 q.toNat * Nat.pow 5 (-q).toNat,
        -((-q).toNat : Int)⟩ = m * 2 ^ q := by
      simp only [Scientific.toRat, Nat.pow_eq, zpow_neg, zpow_natCast]
      push_cast
      rw [Interval.pow_toNat two_ne_zero q, (by norm_num : (10 : ℚ) = 2 * 5), mul_pow]
      field_simp
    rw [Option.getD_none, hexact]
    exact Interval.contains_value hm q

end Decimal

namespace Numeral

open Decimal Interval

variable {m c : Nat} {q e : Int}

/-- A decimal that rounds to a float is not read as infinite for its exponent. -/
theorem exponent_le_of_contains (hm : Binary.IsMagnitude m q) (hc : 0 < c)
    (hr : (around m q).Contains (c * 10 ^ e)) : e ≤ 400 := by
  by_contra he
  have hcpos : (1 : ℚ) ≤ c := by exact_mod_cast hc
  have hlt : (2 : ℚ) ^ (3 * e) < 2 ^ (q + 53) := by
    calc (2 : ℚ) ^ (3 * e) = 8 ^ e := by
          rw [zpow_mul]
          norm_num
      _ ≤ 10 ^ e := zpow_le_zpow_left₀ (by omega) (by norm_num) (by norm_num)
      _ ≤ c * 10 ^ e := le_mul_of_one_le_left (by positivity) hcpos
      _ < 2 ^ (q + 53) := hr.lt_zpow hm
  have := (zpow_lt_zpow_iff_right₀ one_lt_two).1 hlt
  have := hm.le
  omega

/-- A decimal that rounds to a float is not read as zero for its size. -/
theorem size_ge_of_contains (hm : Binary.IsMagnitude m q)
    (hr : (around m q).Contains (c * 10 ^ e)) : -1200 ≤ e + (c.log2 : Int) := by
  by_contra he
  have hten : (10 : ℚ) ^ e ≤ 2 ^ e := by
    have := zpow_le_zpow_left₀ (a := (2 : ℚ)) (b := 10) (n := -e) (by omega) (by norm_num)
      (by norm_num)
    rwa [zpow_neg, zpow_neg, inv_le_inv₀ (by positivity) (by positivity)] at this
  have hle : (2 : ℚ) ^ (q - 1) ≤ 2 ^ ((c.log2 : Int) + 1 + e) := by
    calc (2 : ℚ) ^ (q - 1) ≤ c * 10 ^ e := hr.zpow_le hm.pos
      _ ≤ 2 ^ ((c.log2 : Int) + 1) * 2 ^ e := by
        have := (Ratio.lt_zpow_log2 c).le
        gcongr
      _ = 2 ^ ((c.log2 : Int) + 1 + e) := (zpow_add₀ two_ne_zero _ _).symm
  have := (zpow_le_zpow_iff_right₀ one_lt_two).1 hle
  have := hm.least
  omega

/-- A decimal in the rounding interval of a float is read as the float. -/
theorem nearest_of_contains {x : Float} {m : Int} (h : Binary.ofFloat x = .finite m q)
    (hm : m ≠ 0) (hc : 0 < c) (hr : (around m.natAbs q).Contains (c * 10 ^ e)) :
    nearest x.signBit c e = x := by
  have hmagnitude := (Binary.exists_magnitude x.toBits.toNat_lt h hm).1
  have hsmall : ¬400 < e := not_lt.2 (exponent_le_of_contains hmagnitude hc hr)
  have hlarge : ¬e + (c.log2 : Int) < -1200 := not_lt.2 (size_ge_of_contains hmagnitude hr)
  rw [nearest, if_neg hc.ne', if_neg hsmall, if_neg hlarge]
  refine Ratio.nearestSigned_eq h hm (Ratio.nearestBits_of_contains hmagnitude ?_ ?_ ?_)
  · refine Int.natAbs_pos.2 fun hzero => ?_
    have hquotient := Ratio.natAbs_scaled (by norm_num : 0 < 10) c e
    rw [hzero, Int.natAbs_zero, Nat.cast_zero, zero_div] at hquotient
    have : (0 : ℚ) < c * (10 : Nat) ^ e := by positivity
    exact absurd hquotient this.ne
  · exact Ratio.den_scaled_pos (by norm_num) _ _
  · rw [Ratio.natAbs_scaled (by norm_num)]
    exact_mod_cast hr

end Numeral
end AtomicCss

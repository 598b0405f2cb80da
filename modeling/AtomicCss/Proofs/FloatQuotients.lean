import Mathlib.Algebra.Order.Ring.Nat

/-!
# Finite quotients of floats

A finite float divided by one of magnitude two or more is finite. The bound is on the position of
the leading digit: that of the quotient is at most one above the difference of the two positions,
and rounding raises it by at most one more.
-/
open Float.Model

namespace Float.Model.UnpackedFloat

namespace ExtendedMantissa

theorem mantissa_shiftRight (em : ExtendedMantissa) (n : Nat) :
    (em >>> n).mantissa = em.mantissa / 2 ^ n := by
  change (n.repeat shiftRightOne em).mantissa = _
  induction n with
  | zero => rw [Nat.pow_zero, Nat.div_one, Nat.repeat]
  | succ n ih =>
    rw [Nat.repeat, shiftRightOne, ih, Nat.pow_succ, Nat.div_div_eq_div_mul]

theorem mantissa_ofMantissaAndAccuracy (m : Nat) (acc : Accuracy) :
    (ofMantissaAndAccuracy m acc).mantissa = m := by
  cases acc with
  | exact => rfl
  | inexact o => cases o <;> rfl

theorem roundedMantissa_le (em : ExtendedMantissa) : em.roundedMantissa ≤ em.mantissa + 1 := by
  obtain ⟨m, round, sticky⟩ := em
  have hmod := Nat.mod_lt m Nat.two_pos
  cases round <;> cases sticky <;>
    simp only [roundedMantissa, accuracy, Accuracy.roundToNearestEven] <;> omega

end ExtendedMantissa

theorem log2_div_pow_le (m s : Nat) : (m / 2 ^ s).log2 ≤ m.log2 - s := by
  by_cases hs : s ≤ m.log2
  · rcases Nat.eq_zero_or_pos (m / 2 ^ s) with hzero | hpos
    · simp [hzero]
    · rw [← Nat.lt_succ_iff, Nat.log2_lt hpos.ne', Nat.div_lt_iff_lt_mul (Nat.two_pow_pos s),
        ← Nat.pow_add]
      have hexp : m.log2 - s + 1 + s = m.log2 + 1 := by omega
      rw [Nat.succ_eq_add_one, hexp]
      exact Nat.lt_log2_self
  · have hlt : m < 2 ^ s :=
      Nat.lt_log2_self.trans_le (Nat.pow_le_pow_right Nat.two_pos (by omega))
    simp [Nat.div_eq_of_lt hlt]

theorem log2_le_of_le_succ {m n : Nat} (h : n ≤ m + 1) : n.log2 ≤ m.log2 + 1 := by
  rcases Nat.eq_zero_or_pos n with rfl | hpos
  · simp
  · have hlt : m < 2 ^ (m.log2 + 1) := Nat.lt_log2_self
    have hpow : 2 ^ (m.log2 + 1 + 1) = 2 ^ (m.log2 + 1) * 2 := Nat.pow_succ ..
    rw [← Nat.lt_succ_iff, Nat.succ_eq_add_one, Nat.log2_lt hpos.ne']
    omega

section Shift

variable {m : Nat} {e K : Int} (acc : Accuracy) (htotal : totalExponent m e ≤ K)
  (he : e ≤ K - 53) (hK : -1021 ≤ K)
include htotal he hK

theorem exponent_shift_le : (shiftToTargetExponent .binary64 m e acc).2 ≤ K - 53 := by
  have htarget : Format.binary64.targetExponent (totalExponent m e) ≤ K - 53 :=
    max_le (Int.sub_le_sub_right htotal 53) (by change (-1074 : Int) ≤ _; omega)
  simp only [shiftToTargetExponent, shiftToExponent]
  omega

/-- Where the leading digit is after a shift and one rounding. -/
theorem totalExponent_shift_le :
    totalExponent (shiftToTargetExponent .binary64 m e acc).1.roundedMantissa
      (shiftToTargetExponent .binary64 m e acc).2 ≤ K + 1 := by
  have hexponent := exponent_shift_le acc htotal he hK
  simp only [shiftToTargetExponent, shiftToExponent] at hexponent ⊢
  generalize (Format.binary64.targetExponent (totalExponent m e) - e).toNat = s at hexponent ⊢
  have hround := (ExtendedMantissa.ofMantissaAndAccuracy m acc >>> s).roundedMantissa_le
  rw [ExtendedMantissa.mantissa_shiftRight, ExtendedMantissa.mantissa_ofMantissaAndAccuracy]
    at hround
  have hlog := log2_le_of_le_succ hround
  have hdiv := log2_div_pow_le m s
  simp only [totalExponent] at htotal ⊢
  omega

end Shift

theorem isFinite_unpack_iff (b : BitVec Format.binary64.numBits) :
    (unpack .binary64 b).isFinite = true ↔ unpackExponent b ≠ -1#_ := by
  delta unpack
  dsimp only
  by_cases hones : unpackExponent b = -1#_
  · rw [if_pos hones]
    refine iff_of_false ?_ (not_not.2 hones)
    split <;> exact Bool.false_ne_true
  rw [if_neg hones]
  refine iff_of_true ?_ hones
  by_cases hsmall : unpackExponent b = 0#_
  · rw [if_pos hsmall]
    by_cases hzero : unpackMantissa b = 0#_
    · rw [dif_pos hzero]
      rfl
    · rw [dif_neg hzero]
      rfl
  · rw [if_neg hsmall]
    rfl

/-- With an exponent up to that of the largest floats a float is packed as a finite one. -/
theorem isFinite_pack_finite {s : Sign} {m : Nat} {e : Int} (hm : 0 < m) (he : e ≤ 971) :
    (Model.pack (.finite s m e hm)).unpack.isFinite = true := by
  change (unpack .binary64 (pack .binary64 (.finite s m e hm))).isFinite = true
  have hbiased : (e + 1023 + 52).toNat < 2047 := by omega
  have hplain : ¬2 ^ 11 ≤ (e + 1023 + 52).toNat + 1 := by omega
  have hpack : pack .binary64 (.finite s m e hm) = if m.log2 + 1 = 53 then
      packComponents .binary64 s (BitVec.ofNat 11 (e + 1023 + 52).toNat) (BitVec.ofNat 52 m)
      else packComponents .binary64 s 0#11 (BitVec.ofNat 52 m) :=
    if_neg hplain
  rw [isFinite_unpack_iff, hpack]
  split
  · rw [unpackExponent_packComponents]
    intro hones
    have hnat := congrArg BitVec.toNat hones
    rw [BitVec.toNat_ofNat, Nat.mod_eq_of_lt (by omega)] at hnat
    exact hbiased.ne hnat
  · rw [unpackExponent_packComponents]
    decide

theorem isFinite_pack_zero (s : Sign) : (Model.pack (.zero s)).unpack.isFinite = true := by
  cases s <;> rfl

/-- Below half of the range a rounded float is packed as a finite one. -/
theorem isFinite_pack_round {s : Sign} {m : Nat} {e : Int} (acc : Accuracy)
    (htotal : totalExponent m e ≤ 1023) (he : e ≤ 970) :
    (Model.pack (roundWithAccuracy .binary64 s m e acc)).unpack.isFinite = true := by
  have hfirst := exponent_shift_le acc htotal he (by decide)
  have htotal' := totalExponent_shift_le acc htotal he (by decide)
  have hsecond := exponent_shift_le .exact htotal' (by omega) (by decide)
  rw [roundWithAccuracy]
  dsimp only
  generalize shiftToTargetExponent .binary64 _ _ Accuracy.exact = rounded at hsecond ⊢
  by_cases hzero : rounded.1.mantissa = 0
  · rw [dif_pos hzero]
    exact isFinite_pack_zero s
  · rw [dif_neg hzero]
    exact isFinite_pack_finite _ hsecond

/-- Where the leading digit of a float can be. -/
theorem totalExponent_unpack_le {b : BitVec Format.binary64.numBits} {s : Sign} {m : Nat} {e : Int}
    {hm : 0 < m} (h : unpack .binary64 b = .finite s m e hm) : totalExponent m e ≤ 1024 := by
  suffices hbound : m < 2 ^ 53 ∧ e ≤ 971 by
    have hlog : m.log2 < 53 := (Nat.log2_lt hm.ne').2 hbound.1
    simp only [totalExponent]
    omega
  have hfield : (@unpackExponent .binary64 b).toNat < 2048 := BitVec.isLt _
  have hmantissa : (@unpackMantissa .binary64 b).toNat < 2 ^ 52 := BitVec.isLt _
  have hones : @unpackExponent .binary64 b ≠ -1#_ := by
    rw [← isFinite_unpack_iff, h]
    rfl
  have hlast : (@unpackExponent .binary64 b).toNat ≠ 2047 := fun hnat =>
    hones (BitVec.eq_of_toNat_eq hnat)
  have hbias : ((Format.binary64.exponentBias : Nat) : Int) = 1023 := rfl
  delta unpack at h
  dsimp only at h
  rw [if_neg hones] at h
  by_cases hsmall : unpackExponent b = 0#_
  · have hnat : (@unpackExponent .binary64 b).toNat = 0 := congrArg BitVec.toNat hsmall
    rw [if_pos hsmall] at h
    by_cases hzero : unpackMantissa b = 0#_
    · rw [dif_pos hzero] at h
      cases h
    · rw [dif_neg hzero] at h
      obtain ⟨-, hm, he⟩ := finite.inj h
      omega
  · rw [if_neg hsmall] at h
    obtain ⟨-, hm, he⟩ := finite.inj h
    have hnormal : (1#1 ++ @unpackMantissa .binary64 b).toNat < 2 ^ 53 := BitVec.isLt _
    omega

section Quotient

variable {m n : Nat} {d e : Int}

theorem log2_shiftLeft_div_le (m k : Nat) (hpos : 0 < n) :
    (m <<< k / n).log2 ≤ m.log2 + k - n.log2 := by
  rcases Nat.eq_zero_or_pos (m <<< k / n) with hzero | hquotient
  · simp [hzero]
  · rw [← Nat.lt_succ_iff, Nat.succ_eq_add_one, Nat.log2_lt hquotient.ne',
      Nat.div_lt_iff_lt_mul hpos, Nat.shiftLeft_eq]
    calc
      m * 2 ^ k < 2 ^ (m.log2 + 1) * 2 ^ k :=
        Nat.mul_lt_mul_of_pos_right Nat.lt_log2_self (Nat.two_pow_pos k)
      _ = 2 ^ (m.log2 + 1 + k) := (Nat.pow_add ..).symm
      _ ≤ 2 ^ (m.log2 + k - n.log2 + 1 + n.log2) := Nat.pow_le_pow_right Nat.two_pos (by omega)
      _ = 2 ^ (m.log2 + k - n.log2 + 1) * 2 ^ n.log2 := Nat.pow_add ..
      _ ≤ 2 ^ (m.log2 + k - n.log2 + 1) * n :=
        Nat.mul_le_mul_left _ (Nat.log2_self_le hpos.ne')

/-- The leading digit of a quotient by two or more, before it is rounded. -/
theorem divCore_bounds (hm : totalExponent m d ≤ 1024) (hn : 2 ≤ totalExponent n e) (hpos : 0 < n) :
    totalExponent (divCore .binary64 m d n e).1 (divCore .binary64 m d n e).2.1 ≤ 1023
      ∧ (divCore .binary64 m d n e).2.1 ≤ 970 := by
  have htarget : Format.binary64.targetExponent (totalExponent m d - totalExponent n e) ≤ 969 :=
    max_le (by change totalExponent m d - totalExponent n e - 53 ≤ 969; omega) (by decide)
  simp only [divCore]
  generalize ht : min (d - e)
    (Format.binary64.targetExponent (totalExponent m d - totalExponent n e)) = t
  have hshift : ((d - e - t).toNat : Int) = d - e - t := by omega
  generalize (d - e - t).toNat = k at hshift
  refine ⟨?_, by omega⟩
  have hquotient := log2_shiftLeft_div_le m k hpos
  simp only [totalExponent] at hm hn ⊢
  omega

end Quotient

end Float.Model.UnpackedFloat

namespace Float

/-- Whether a float is finite and its magnitude is two or more. -/
def isLarge (y : Float) : Bool :=
  match y.toModel.unpack with
  | .finite _ n e _ => 2 ≤ totalExponent n e
  | _ => false

theorem isFinite_div {x y : Float} (hx : x.isFinite = true) (hy : y.isLarge = true) :
    (x / y).isFinite = true := by
  change x.toModel.unpack.isFinite = true at hx
  change (Model.pack (.div .binary64 x.toModel.unpack y.toModel.unpack)).unpack.isFinite = true
  rw [isLarge] at hy
  split at hy
  · next s n e hn hunpack =>
    rw [hunpack]
    cases hunpack' : x.toModel.unpack with
    | notANumber | infinity sign =>
      rw [hunpack'] at hx
      cases hx
    | zero sign => exact UnpackedFloat.isFinite_pack_zero (sign / s)
    | finite sign m d hm =>
      have hm := UnpackedFloat.totalExponent_unpack_le hunpack'
      obtain ⟨htotal, hexponent⟩ := UnpackedFloat.divCore_bounds hm (of_decide_eq_true hy) hn
      exact UnpackedFloat.isFinite_pack_round _ htotal hexponent
  · cases hy

end Float

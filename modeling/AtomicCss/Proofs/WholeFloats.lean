import Mathlib
import AtomicCss.Number.Basic
import AtomicCss.Proofs.FloatQuotients

/-!
# Whole floats and integers

A whole float and the integer it equals are the same number, but the float nearest to the integer
may be the other zero. So floats are compared up to the sign of zero. Sums, differences, products
and quotients by a fixed divisor do not look at that sign, and rounding the integer gives back the
float. The library's lemmas on packed floats are imported by Mathlib as a whole, but by no module of
it.
-/

open Float.Model AtomicCss

namespace Float.Model.UnpackedFloat

/-- Equal, but for the sign of zero. -/
def Agrees (u v : UnpackedFloat) : Prop := u = v ∨ (∃ s, u = .zero s) ∧ ∃ t, v = .zero t

namespace Agrees

variable {u v w : UnpackedFloat}

theorem refl (u : UnpackedFloat) : Agrees u u := .inl rfl

theorem zero (s t : Sign) : Agrees (.zero s) (.zero t) := .inr ⟨⟨s, rfl⟩, t, rfl⟩

theorem trans (h : Agrees u v) (h' : Agrees v w) : Agrees u w := by
  rcases h with rfl | ⟨hu, t, rfl⟩
  · exact h'
  · rcases h' with rfl | ⟨-, hw⟩
    · exact .inr ⟨hu, t, rfl⟩
    · exact .inr ⟨hu, hw⟩

/-- A function that does not tell the zeros apart takes floats that agree to floats that agree. -/
theorem map {f : UnpackedFloat → UnpackedFloat} (hf : ∀ s t, Agrees (f (.zero s)) (f (.zero t)))
    (h : Agrees u v) : Agrees (f u) (f v) := by
  rcases h with rfl | ⟨⟨s, rfl⟩, t, rfl⟩
  · exact refl _
  · exact hf s t

theorem map₂ {f : UnpackedFloat → UnpackedFloat → UnpackedFloat} {u' v' : UnpackedFloat}
    (hleft : ∀ w s t, Agrees (f (.zero s) w) (f (.zero t) w))
    (hright : ∀ w s t, Agrees (f w (.zero s)) (f w (.zero t)))
    (hu : Agrees u u') (hv : Agrees v v') : Agrees (f u v) (f u' v') :=
  (hu.map (f := fun x => f x v) (hleft v)).trans (hv.map (hright u'))

theorem abs (h : Agrees u v) : Agrees u.abs v.abs := h.map fun _ _ => zero _ _

section

variable {u' v' : UnpackedFloat} (spec : Format)

theorem add (hu : Agrees u u') (hv : Agrees v v') : Agrees (add spec u v) (add spec u' v') := by
  refine map₂ (fun w s t => ?_) (fun w s t => ?_) hu hv
  all_goals
    cases w with
    | zero r => cases s <;> cases t <;> cases r <;> exact zero _ _
    | _ => exact refl _

theorem sub (hu : Agrees u u') (hv : Agrees v v') : Agrees (sub spec u v) (sub spec u' v') := by
  refine map₂ (fun w s t => ?_) (fun w s t => ?_) hu hv
  all_goals
    cases w with
    | zero r => cases s <;> cases t <;> cases r <;> exact zero _ _
    | _ => exact refl _

theorem mul (hu : Agrees u u') (hv : Agrees v v') : Agrees (mul spec u v) (mul spec u' v') := by
  refine map₂ (fun w s t => ?_) (fun w s t => ?_) hu hv
  all_goals
    cases w with
    | notANumber | infinity _ => exact refl _
    | zero _ | finite _ _ _ _ => exact zero _ _

/-- Of the two sides of a quotient only the dividend may be the other zero. -/
theorem div (hu : Agrees u u') (v : UnpackedFloat) : Agrees (div spec u v) (div spec u' v) := by
  refine hu.map (f := fun w => UnpackedFloat.div spec w v) fun s t => ?_
  cases v with
  | notANumber | zero _ => exact refl _
  | infinity _ | finite _ _ _ _ => exact zero _ _

end

end Agrees
end Float.Model.UnpackedFloat

/-- The floats are equal, but for the sign of zero. -/
def Float.Agrees (x y : Float) : Prop := x.toModel.unpack.Agrees y.toModel.unpack

namespace Float.Agrees

variable {x y x' y' : Float}

theorem refl (x : Float) : Agrees x x := UnpackedFloat.Agrees.refl _

theorem pack {u v : UnpackedFloat} (h : u.Agrees v) :
    Agrees (ofModel (Model.pack u)) (ofModel (Model.pack v)) := by
  refine h.map (f := fun u => (Model.pack u).unpack) fun s t => ?_
  have hzero : ∀ s, (Model.pack (.zero s)).unpack = .zero s :=
    fun _ => UnpackedFloat.unpack_packedZero
  rw [hzero, hzero]
  exact .zero s t

theorem add (hx : Agrees x x') (hy : Agrees y y') : Agrees (x + y) (x' + y') :=
  pack (UnpackedFloat.Agrees.add _ hx hy)

theorem sub (hx : Agrees x x') (hy : Agrees y y') : Agrees (x - y) (x' - y') :=
  pack (UnpackedFloat.Agrees.sub _ hx hy)

theorem mul (hx : Agrees x x') (hy : Agrees y y') : Agrees (x * y) (x' * y') :=
  pack (UnpackedFloat.Agrees.mul _ hx hy)

theorem div (hx : Agrees x x') (y : Float) : Agrees (x / y) (x' / y) :=
  pack (UnpackedFloat.Agrees.div _ hx _)

theorem abs (hx : Agrees x x') : Agrees x.abs x'.abs := pack (UnpackedFloat.Agrees.abs hx)

theorem ofFloat_of_unpack_zero {s : UnpackedFloat.Sign} (h : x.toModel.unpack = .zero s) :
    Binary.ofFloat x = .finite 0 (-1074) := by
  have hbits := (UnpackedFloat.unpack_eq_zero_iff_of_valid x.toModel.valid).1 h
  change Binary.ofBits x.toModel.toBits.toBitVec.toNat = _
  rw [hbits]
  cases s <;> rfl

/-- Floats that agree are equal, or both are zero. -/
theorem eq_or_zero (h : Agrees x y) : x = y
    ∨ Binary.ofFloat x = .finite 0 (-1074) ∧ Binary.ofFloat y = .finite 0 (-1074) := by
  rcases h with h | ⟨⟨s, hs⟩, t, ht⟩
  · have hbits := (UnpackedFloat.unpack_inj_of_valid x.toModel.valid y.toModel.valid).1 h
    exact .inl (toBits_inj.1 (UInt64.toBitVec_inj.1 hbits))
  · exact .inr ⟨ofFloat_of_unpack_zero hs, ofFloat_of_unpack_zero ht⟩

/-- Floats that agree stand for the same number. -/
theorem ofFloat_eq (h : Agrees x y) : Binary.ofFloat x = Binary.ofFloat y := by
  rcases h.eq_or_zero with rfl | ⟨hx, hy⟩
  · rfl
  · rw [hx, hy]

end Float.Agrees

namespace AtomicCss.Ratio

theorem roundEven_mul {d : Nat} (pos : 0 < d) (m : Nat) : roundEven (m * d) d = m := by
  have hdiv : m * d / d = m := Nat.mul_div_cancel m pos
  simp [roundEven, hdiv]
  omega

theorem binade_one {n : Nat} (hn : n ≠ 0) : binade n 1 = n.log2 := by
  have hlog : Nat.log2 1 = 0 := rfl
  have hle : 2 ^ n.log2 ≤ n := Nat.log2_self_le hn
  simp [binade, hlog, hle]

theorem log2_mul_pow {n : Nat} (hn : n ≠ 0) (a : Nat) : (n * 2 ^ a).log2 = n.log2 + a := by
  rw [Nat.log2_eq_iff (by positivity), Nat.add_right_comm, Nat.pow_add, Nat.pow_add _ _ a]
  have hpos := Nat.two_pow_pos a
  exact ⟨Nat.mul_le_mul_right _ (Nat.log2_self_le hn),
    Nat.mul_lt_mul_of_pos_right Nat.lt_log2_self hpos⟩

/-- Where a whole number is a mantissa of full length times a power of two, rounding it to a float
gives this mantissa. -/
theorem nearestBits_of_mul_eq {k m e : Nat} (low : Binary.leadingBit ≤ m)
    (high : m < 2 * Binary.leadingBit) (he : 0 < e)
    (h : k * 2 ^ (1075 - e) = m * 2 ^ (e - 1075)) :
    nearestBits k 1 = min ((e - 1) * Binary.leadingBit + m) infinityBits := by
  have hm : m.log2 = 52 ∧ m ≠ 0 := by
    have hlead : Binary.leadingBit = 2 ^ 52 := rfl
    have hne : m ≠ 0 := by omega
    exact ⟨(Nat.log2_eq_iff hne).2 ⟨by omega, by omega⟩, hne⟩
  have hk : k ≠ 0 := by
    rintro rfl
    simp [hm.2] at h
  have hexp : max (binade k 1 - 52) (-1074) = (e : Int) - 1075 := by
    have hlog := congrArg Nat.log2 h
    rw [log2_mul_pow hk, log2_mul_pow hm.2, hm.1] at hlog
    rw [binade_one hk]
    omega
  have hshift : ((e : Int) - 1075 + 1074).toNat = e - 1 := by omega
  simp only [nearestBits, hk, hexp, hshift, Nat.one_ne_zero, or_self, if_false]
  congr 2
  split
  · next hle =>
    have hdown : 1075 - e = 0 := by omega
    have hup : ((e : Int) - 1075).toNat = e - 1075 := by omega
    rw [hdown, Nat.pow_zero, Nat.mul_one] at h
    rw [hup, h, Nat.one_mul]
    exact roundEven_mul (Nat.two_pow_pos _) m
  · next hlt =>
    have hup : e - 1075 = 0 := by omega
    have hdown : (-((e : Int) - 1075)).toNat = 1075 - e := by omega
    rw [hup, Nat.pow_zero, Nat.mul_one] at h
    have hround := roundEven_mul Nat.one_pos m
    rw [Nat.mul_one] at hround
    exact hdown ▸ (congrArg (roundEven · 1) h).trans hround
theorem mul_pow_of_scaled {m n q : Int}
    (h : n * (scaled m 2 q).den = (scaled m 2 q).num) :
    n * 2 ^ (-q).toNat = m * 2 ^ q.toNat := by
  rw [scaled] at h
  split at h
  · next hq =>
    have hdown : (-q).toNat = 0 := by omega
    simpa [hdown] using h
  · next hq =>
    have hup : q.toNat = 0 := by omega
    simpa [hup] using h

end AtomicCss.Ratio

namespace AtomicCss.Binary

theorem neg_iff_of_mul_pow {m n : Int} {a b : Nat} (h : n * 2 ^ a = m * 2 ^ b) :
    n < 0 ↔ m < 0 := by
  have hsign : ∀ (k : Int) (c : Nat), k * 2 ^ c < 0 ↔ k < 0 := by
    intro k c
    have hpos : (0 : Int) < 2 ^ c := by positivity
    simp [mul_neg_iff, hpos, hpos.not_gt]
  rw [← hsign n a, h, hsign]

/-- A number below the least full mantissa times the least power of two is whole only if it is
zero. -/
theorem eq_zero_of_subnormal {m n : Int} (hm : m.natAbs < leadingBit)
    (h : n * 2 ^ (-(-1074 : Int)).toNat = m * 2 ^ (-1074 : Int).toNat) : n = 0 ∧ m = 0 := by
  have hlarge : leadingBit ≤ 2 ^ (-(-1074 : Int)).toNat :=
    (Nat.pow_le_pow_right Nat.two_pos (by decide) : 2 ^ 52 ≤ _)
  have hone : (2 : Int) ^ (-1074 : Int).toNat = 1 := rfl
  have habs := congrArg Int.natAbs h
  simp only [hone, Int.mul_one, Int.natAbs_mul, Int.natAbs_pow, Int.reduceAbs] at habs
  generalize 2 ^ (-(-1074 : Int)).toNat = large at hlarge habs
  have hn : n.natAbs = 0 := by
    by_contra hne
    have hle := Nat.le_mul_of_pos_left large (Nat.pos_of_ne_zero hne)
    omega
  rw [hn, Nat.zero_mul] at habs
  omega

/-- A whole number is rounded to the float it was read from, unless it is zero. -/
theorem bits_of_whole {bits : Nat} {m q n : Int} (hbits : bits < 2 * 0x8000000000000000)
    (hfinite : ofBits bits = .finite m q)
    (hwhole : n * (Ratio.scaled m 2 q).den = (Ratio.scaled m 2 q).num) :
    n = 0 ∧ (bits = 0 ∨ bits = 0x8000000000000000)
      ∨ bits = (if n < 0 then 0x8000000000000000 + Ratio.nearestBits n.natAbs 1
          else Ratio.nearestBits n.natAbs 1) := by
  have hmul := Ratio.mul_pow_of_scaled hwhole
  have hlead : leadingBit = 0x10000000000000 := rfl
  have hmod : bits % leadingBit < leadingBit := Nat.mod_lt _ (by decide)
  simp only [ofBits] at hfinite
  split at hfinite
  · split at hfinite <;> cases hfinite
  next hfield =>
  generalize hf : bits % leadingBit = f at hfinite hmod
  generalize he : bits / leadingBit % 2048 = e at hfinite hfield
  simp only [Binary.finite.injEq] at hfinite
  obtain ⟨hm, hq⟩ := hfinite
  by_cases hzero : e = 0
  · rw [if_pos hzero] at hm hq
    subst hq
    have hf0 : m.natAbs = f := by split at hm <;> omega
    obtain ⟨hn0, hm0⟩ := eq_zero_of_subnormal (by omega) hmul
    rw [hlead] at hf he
    exact .inl ⟨hn0, by omega⟩
  · rw [if_neg hzero] at hm hq
    subst hq
    have hm0 : m.natAbs = leadingBit + f ∧ (m < 0 ↔ 0x8000000000000000 ≤ bits) := by
      split at hm <;> omega
    have hsign := neg_iff_of_mul_pow hmul
    have hdown : (-((e : Int) - 1075)).toNat = 1075 - e := by omega
    have hup : ((e : Int) - 1075).toNat = e - 1075 := by omega
    have habs := congrArg Int.natAbs hmul
    simp only [Int.natAbs_mul, Int.natAbs_pow, Int.reduceAbs, hdown, hup, hm0.1] at habs
    have hinf : Ratio.infinityBits = 2047 * leadingBit := rfl
    rw [Ratio.nearestBits_of_mul_eq (by omega) (by omega) (by omega) habs, hinf, hlead]
    rw [hlead] at hf he
    clear hmul habs
    refine .inr ?_
    rw [Nat.min_eq_left (by omega)]
    split <;> omega

end AtomicCss.Binary

namespace Float

theorem isFinite_of_ofFloat {x : Float} {m q : Int} (h : Binary.ofFloat x = .finite m q) :
    x.isFinite = true := by
  have hfield : x.toBits.toNat / Binary.leadingBit % 2048 ≠ 2047 := by
    intro hinf
    simp only [Binary.ofFloat, Binary.ofBits, hinf, if_true] at h
    split at h <;> cases h
  have hexp :
      @UnpackedFloat.unpackExponent .binary64 x.toModel.toBits.toBitVec ≠ -1#_ := by
    intro hones
    rw [UnpackedFloat.unpackExponent_def] at hones
    have hnat := congrArg BitVec.toNat hones
    simp only [BitVec.extractLsb'_toNat, Nat.shiftRight_eq_div_pow] at hnat
    exact hfield hnat
  exact (UnpackedFloat.isFinite_unpack_iff _).2 hexp

theorem exists_ratio_of_integer? {x : Float} {n : Int} (h : x.integer? = some n) :
    ∃ r, x.ratio? = some r ∧ n * r.den = r.num := by
  obtain ⟨r, hr, hint⟩ := Option.bind_eq_some_iff.1 h
  obtain ⟨hwhole, hfloor⟩ := Option.ite_none_right_eq_some.1 hint
  refine ⟨r, hr, ?_⟩
  rw [← Option.some.inj hfloor]
  exact Int.ediv_mul_cancel (Int.dvd_of_emod_eq_zero hwhole)

/-- The float nearest to the integer that a float equals is the float itself, but for the sign of
zero. -/
theorem toFloat_of_integer? {x : Float} {n : Int} (h : x.integer? = some n) :
    ∃ y, (Number.int n).toFloat = .ok y ∧ x.Agrees y := by
  obtain ⟨r, hr, hwhole⟩ := exists_ratio_of_integer? h
  rw [ratio?] at hr
  cases hbin : Binary.ofFloat x with
  | infinite _ | notANumber =>
    rw [hbin] at hr
    cases hr
  | finite m q =>
    rw [hbin] at hr
    cases hr
    have hlt : x.toBits.toNat < 2 * 0x8000000000000000 := x.toBits.toNat_lt
    have hself : ofBits (UInt64.ofNat x.toBits.toNat) = x := by
      rw [UInt64.ofNat_toNat, ofBits_toBits]
    rcases Binary.bits_of_whole hlt hbin hwhole with ⟨rfl, hzero⟩ | hbits
    · refine ⟨ofBits 0, rfl, ?_⟩
      rcases hzero with hzero | hzero
      · rw [← hself, hzero]
        exact .refl _
      · rw [← hself, hzero]
        exact .inr ⟨⟨.negative, rfl⟩, .positive, rfl⟩
    · have hx : (Ratio.ofInt n).nearest = x := by
        rw [hbits] at hself
        by_cases hneg : n < 0 <;>
          simpa [Ratio.nearest, Ratio.nearestSigned, Ratio.ofInt, hneg] using hself
      refine ⟨x, ?_, .refl x⟩
      simp [Number.toFloat, hx, isFinite_of_ofFloat hbin]

end Float

namespace AtomicCss

theorem Binary.den_pos_of_ratio? {b : Binary} {r : Ratio} (h : b.ratio? = some r) : 0 < r.den := by
  cases b with
  | infinite _ | notANumber => cases h
  | finite m q =>
    rw [← Option.some.inj h, Ratio.scaled]
    split
    · exact Nat.one_pos
    · exact Nat.two_pow_pos _

namespace Number

theorem equal_int_iff {n : Number} {k : Int} :
    n.equal (.int k) = true ↔ ∃ r, n.ratio? = some r ∧ r.num = k * r.den := by
  rw [equal, compare?]
  cases hr : n.ratio? with
  | some r => simp [ratio?, Ratio.compare, Ratio.ofInt]
  | none =>
    cases n with
    | int m => simp [ratio?] at hr
    | float x =>
      simp only [Option.isSome_none, Bool.false_eq_true, false_or, reduceCtorEq, false_and,
        exists_false, iff_false, Bool.not_eq_true]
      split
      · rfl
      · split <;> rfl

/-- A whole float and the integer it becomes equal the same integers. -/
theorem equal_normalize (n : Number) (k : Int) : n.normalize.equal (.int k) = n.equal (.int k) := by
  cases n with
  | int n => rfl
  | float x =>
    rw [normalize]
    cases hint : x.integer? with
    | none => rfl
    | some i =>
      obtain ⟨r, hr, hwhole⟩ := Float.exists_ratio_of_integer? hint
      have hden : r.den ≠ 0 := (Binary.den_pos_of_ratio? hr).ne'
      rw [Bool.eq_iff_iff, equal_int_iff, equal_int_iff]
      simp [ratio?, hr, ← hwhole, Ratio.ofInt, hden]

end Number

end AtomicCss

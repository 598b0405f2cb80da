import AtomicCss.Color.Tone
import AtomicCss.Proofs.Dict
import AtomicCss.Proofs.Order
import AtomicCss.Proofs.Results
import AtomicCss.Proofs.RoundingOrder

/-!
# Requested tones

A request for a tone is rounded, brought between the ends of a track and answered with the nearest
tone on the grid of the track. Each of these steps keeps the order of tones, and a tone of a grid is
answered with itself. All tones of the grids are on the tracks of a color, so a theme that holds
these has a color for every request that can be rounded, which an integer beyond the floats cannot.
-/
namespace AtomicCss

theorem Ratio.toRat_lt_iff {r s : Ratio} (hr : 0 < r.den) (hs : 0 < s.den) :
    r.toRat < s.toRat ↔ r.num * s.den < s.num * r.den := by
  have hr' : (0 : ℚ) < r.den := by exact_mod_cast hr
  have hs' : (0 : ℚ) < s.den := by exact_mod_cast hs
  rw [toRat, toRat, div_lt_div_iff₀ hr' hs']
  norm_cast

namespace Number

variable {m n : Number}

theorem less_iff (hm : m.IsReal) (hn : n.IsReal) : m.less n = true ↔ m.toRat < n.toRat := by
  obtain ⟨r, hr, hrden⟩ := hm.exists_ratio
  obtain ⟨s, hs, hsden⟩ := hn.exists_ratio
  rw [less, compare?, hr, hs, toRat, toRat, hr, hs]
  simp only [Option.map_some, Option.getD_some, Ratio.toRat_lt_iff hrden hsden]
  simp [Ratio.compare, compare_lt_iff_lt]

theorem atMost_iff (hm : m.IsReal) (hn : n.IsReal) : m.atMost n = true ↔ m.toRat ≤ n.toRat := by
  rw [atMost, Bool.or_eq_true, less_iff hm hn, equal_iff hm hn, le_iff_lt_or_eq]

end Number

namespace Tone

/-- No tone of the grid is nearer, and none that is as near is lower. -/
structure IsNearest (grid : List Int) (target tone : Int) : Prop where
  mem : tone ∈ grid
  nearest : ∀ t ∈ grid, (target - tone).natAbs ≤ (target - t).natAbs
  lowest : ∀ t ∈ grid, (target - t).natAbs = (target - tone).natAbs → tone ≤ t

variable {target : Int}

/-- A tone above all those seen is taken only if it is nearer. -/
theorem IsNearest.concat {front : List Int} {best u : Int} (h : IsNearest front target best)
    (hu : best < u) : IsNearest (front ++ [u]) target
      (if (target - u).natAbs < (target - best).natAbs then u else best) := by
  have hmem : ∀ t ∈ front ++ [u], t ∈ front ∨ t = u := by simp
  split
  · next hnearer =>
    refine ⟨by simp, fun t ht => ?_, fun t ht heq => ?_⟩ <;> rcases hmem t ht with ht | rfl
    · exact hnearer.le.trans (h.nearest t ht)
    · exact le_rfl
    · exact absurd heq (hnearer.trans_le (h.nearest t ht)).ne'
    · exact le_rfl
  · next hfarther =>
    refine ⟨List.mem_append_left _ h.mem, fun t ht => ?_, fun t ht heq => ?_⟩ <;>
      rcases hmem t ht with ht | rfl
    · exact h.nearest t ht
    · exact not_lt.1 hfarther
    · exact h.lowest t ht heq
    · exact hu.le

/-- On a grid that goes up the search finds the nearest tone. -/
theorem isNearest_nearestOn {grid : List Int} (hgrid : grid.Pairwise (· < ·)) (hne : grid ≠ [])
    (target : Int) : IsNearest grid target (nearestOn target grid) := by
  have hsearch : ∀ (rest front : List Int) (best : Int), (front ++ rest).Pairwise (· < ·) →
      IsNearest front target best → IsNearest (front ++ rest) target
        (rest.foldl (fun best u =>
          if (target - u).natAbs < (target - best).natAbs then u else best) best) := by
    intro rest
    induction rest with
    | nil =>
      intro front best _ h
      rwa [List.append_nil]
    | cons u rest ih =>
      intro front best hup h
      have hu := (List.pairwise_append.1 hup).2.2 best h.mem u List.mem_cons_self
      rw [List.append_cons] at hup ⊢
      exact ih _ _ hup (h.concat hu)
  obtain ⟨t, rest, rfl⟩ := List.exists_cons_of_ne_nil hne
  exact hsearch rest [t] t hgrid ⟨by simp, by simp, by simp⟩

example : nearestOn 95 (grid .solid) = 90 := by decide

/-- A greater target is not answered with a lower tone. -/
theorem IsNearest.mono {grid : List Int} {s t target' : Int} (hs : IsNearest grid target s)
    (ht : IsNearest grid target' t) (h : target ≤ target') : s ≤ t := by
  have hnear := hs.nearest t ht.mem
  have hnear' := ht.nearest s hs.mem
  have hlow := hs.lowest t ht.mem
  omega

theorem pairwise_grid (track : Track) : (grid track).Pairwise (· < ·) := by
  cases track <;> decide

theorem grid_ne_nil (track : Track) : grid track ≠ [] := by
  cases track <;> decide

/-- The tone between the ends of a track next to a requested one. -/
def inBounds (track : Track) (n : Int) : Int := max (bounds track).1 (min (bounds track).2 n)

theorem inBounds_mono (track : Track) : Monotone (inBounds track) := fun _ _ h =>
  max_le_max_left _ (min_le_min_left _ h)

variable {tone : Number} {n : Int}

theorem resolve_of_roundHalfUp (h : tone.roundHalfUp = .ok n) : resolve tone
    = .ok (trackOf tone, nearestOn (inBounds (trackOf tone) n) (grid (trackOf tone))) := by
  simp only [resolve, h]
  rfl

theorem resolve_of_error {e : NumberError} (h : tone.roundHalfUp = .error e) :
    resolve tone = .error e := by
  simp only [resolve, h]
  rfl

theorem trackOf_eq_soft_iff (h : tone.IsReal) : trackOf tone = .soft ↔ tone.toRat ≤ 30 := by
  have hthirty : (30 : Number).toRat = 30 := Number.toRat_int 30
  have hreal : (30 : Number).IsReal := trivial
  rw [← hthirty, ← Number.atMost_iff h hreal, trackOf]
  split
  · next hmost => exact iff_of_true rfl hmost
  · next hmore => exact iff_of_false nofun hmore

/-- A tone of a grid is answered with itself. -/
theorem resolve_of_mem_grid {track : Track} {t : Int} (ht : t ∈ grid track) :
    resolve (.int t) = .ok (track, t) := by
  have hall : ∀ t ∈ grid track, resolve (.int t) = .ok (track, t) := by
    cases track <;> decide +kernel
  exact hall t ht

theorem le_of_mem_grids {s t : Int} (hs : s ∈ grid .soft) (ht : t ∈ grid .solid) : s ≤ t := by
  have hall : ∀ s ∈ grid .soft, ∀ t ∈ grid .solid, s ≤ t := by decide
  exact hall s hs t ht

/-- The opacity of a visibility: a hundredth of it, but no less than zero and no more than one. -/
structure IsOpacity (visibility : Number) (x : Float) : Prop where
  least : visibility.atMost 0 = true → x = 0
  most : Number.atMost 100 visibility = true → x = 1
  between : Number.less 0 visibility = true → visibility.less 100 = true →
    visibility.divide 100 = .ok x

theorem divide_zero : Number.divide 0 100 = .ok 0 := by decide +kernel

theorem divide_hundred : Number.divide 100 100 = .ok 1 := by decide +kernel

theorem eq_of_not_isReal {v : Number} (h : ¬v.IsReal) :
    v = .float (1.0 / 0.0) ∨ v = .float (-(1.0 / 0.0)) ∨ v = .float (0.0 / 0.0) := by
  cases v with
  | int n => exact absurd trivial h
  | float x =>
    cases hx : Binary.ofFloat x with
    | finite m q => exact absurd (Float.isFinite_of_ofFloat hx) h
    | notANumber => exact .inr (.inr (congrArg Number.float (Float.eq_of_notANumber hx)))
    | infinite negative =>
      have heq := Float.eq_of_infinite hx
      cases hsign : x.signBit <;> rw [hsign] at heq
      · exact .inl (congrArg Number.float heq)
      · exact .inr (.inl (congrArg Number.float heq))

/-- A hundredth of a number between zero and one hundred does not overflow. -/
theorem exists_divide {v : Number} (hlow : 0 < v.toRat) (hhigh : v.toRat < 100) :
    ∃ x, v.divide 100 = .ok x := by
  cases v with
  | int n =>
    rw [Number.toRat_int] at hlow hhigh
    have hroom : |(Ratio.mk n 100).toRat| < Ratio.overflow := by
      have hone : (1 : ℚ) < Ratio.overflow := by
        have : 1 < Ratio.overflow := by decide +kernel
        exact_mod_cast this
      have hsmall : |(n : ℚ) / (100 : Nat)| < 1 := by
        rw [abs_lt]
        constructor <;> push_cast <;> linarith
      exact hsmall.trans hone
    obtain ⟨m, q, hfinite, -⟩ := Ratio.ofFloat_nearest (a := ⟨n, 100⟩) (Nat.succ_pos 99) hroom
    have hisFinite := Float.isFinite_of_ofFloat hfinite
    have hsign : ((n < 0 : Bool) != ((100 : Int) < 0 : Bool)) = decide (n < 0) := by simp
    refine ⟨(Ratio.mk n 100).nearest, ?_⟩
    change Number.divide (.int n) (.int 100) = _
    rw [Number.divide, hsign, if_neg (by decide)]
    exact if_pos hisFinite
  | float x => exact ⟨_, rfl⟩

theorem exists_isOpacity_of_isReal {v : Number} (hreal : v.IsReal) :
    ∃ x, opacity v = .ok x ∧ IsOpacity v x := by
  have hzero : (0 : Number).IsReal ∧ (0 : Number).toRat = 0 := ⟨trivial, Number.toRat_int 0⟩
  have hhundred : (100 : Number).IsReal ∧ (100 : Number).toRat = 100 :=
    ⟨trivial, Number.toRat_int 100⟩
  have hless := Number.less_iff hreal hhundred.1
  have hmost := Number.atMost_iff hhundred.1 hreal
  have hpos := Number.less_iff hzero.1 hreal
  have hleast := Number.atMost_iff hreal hzero.1
  rw [hhundred.2] at hless hmost
  rw [hzero.2] at hpos hleast
  rcases le_or_gt 100 v.toRat with hfull | hpart
  · have hsome : Number.less 0 100 = true := by decide
    refine ⟨1, ?_, fun h => ?_, fun _ => rfl, fun _ h => ?_⟩
    · simp only [opacity, if_neg (mt hless.1 (not_lt.2 hfull)), if_pos hsome, divide_hundred]
    · linarith [hleast.1 h]
    · linarith [hless.1 h]
  · rcases le_or_gt v.toRat 0 with hnone | hsome
    · refine ⟨0, ?_, fun _ => rfl, fun h => ?_, fun h _ => ?_⟩
      · simp only [opacity, if_pos (hless.2 hpart), if_neg (mt hpos.1 (not_lt.2 hnone)),
          divide_zero]
      · linarith [hmost.1 h]
      · linarith [hpos.1 h]
    · obtain ⟨x, hx⟩ := exists_divide hsome hpart
      refine ⟨x, ?_, fun h => ?_, fun h => ?_, fun _ _ => hx⟩
      · simp only [opacity, if_pos (hless.2 hpart), if_pos (hpos.2 hsome), hx]
      · linarith [hleast.1 h]
      · linarith [hmost.1 h]

/-- No visibility fails, not even one that is no number. -/
theorem exists_isOpacity (v : Number) : ∃ x, opacity v = .ok x ∧ IsOpacity v x := by
  by_cases hreal : v.IsReal
  · exact exists_isOpacity_of_isReal hreal
  · -- there are three floats left, which can be tried
    rcases eq_of_not_isReal hreal with rfl | rfl | rfl
    · exact ⟨1, by decide +kernel, by decide +kernel, by decide +kernel, by decide +kernel⟩
    · exact ⟨0, by decide +kernel, by decide +kernel, by decide +kernel, by decide +kernel⟩
    · exact ⟨1, by decide +kernel, by decide +kernel, by decide +kernel, by decide +kernel⟩

def colorsOn (t : ToneTracks) : Track → List (Nat × Hsla)
  | .soft => t.soft
  | .solid => t.solid

def colorAt? (t : ToneTracks) (track : Track) (tone : Int) : Option Hsla :=
  ((colorsOn t track).find? fun p => (p.1 : Int) = tone).map Prod.snd

def tonesOn : Track → List Nat
  | .soft => softTones
  | .solid => solidTones

theorem exists_mem_tonesOn {track : Track} {k : Int} (hk : k ∈ grid track) :
    ∃ tone ∈ tonesOn track, (tone : Int) = k := by
  have hall : ∀ k ∈ grid track, k ∈ (tonesOn track).map Int.ofNat := by
    cases track <;> decide
  exact List.mem_map.1 (hall k hk)

theorem exists_colorAt? {track : Track} (color : Hsla) (mediumAnchor : Bool) {k : Int}
    (hk : k ∈ grid track) : ∃ c, colorAt? (tracks color mediumAnchor) track k = some c := by
  obtain ⟨tone, htone, rfl⟩ := exists_mem_tonesOn hk
  obtain ⟨c, hc⟩ : ∃ c, (tone, c) ∈ colorsOn (tracks color mediumAnchor) track := by
    cases track <;> exact ⟨_, List.mem_map.2 ⟨tone, htone, rfl⟩⟩
  have hfound : ((colorsOn (tracks color mediumAnchor) track).find?
      fun p => (p.1 : Int) = tone).isSome = true :=
    List.find?_isSome.2 ⟨(tone, c), hc, by simp⟩
  obtain ⟨p, hp⟩ := Option.isSome_iff_exists.1 hfound
  exact ⟨p.2, by rw [colorAt?, hp, Option.map_some]⟩

def members (colors : List (Nat × Hsla)) : Dict Value :=
  colors.map fun (tone, c) => (Decimal.digits tone, .list c.components)

theorem get?_members (colors : List (Nat × Hsla)) (k : Int) :
    (members colors).get? (Number.intText k)
      = (colors.find? fun p => (p.1 : Int) = k).map fun p => .list p.2.components := by
  induction colors with
  | nil => rfl
  | cons p colors ih =>
    obtain ⟨n, c⟩ := p
    have hkey : Decimal.digits n = Number.intText k ↔ (n : Int) = k :=
      ⟨fun h => Number.intText_injective h, fun h => h ▸ rfl⟩
    rw [members, List.map_cons, Dict.get?_cons, List.find?_cons]
    by_cases hk : (n : Int) = k
    · rw [if_pos (hkey.2 hk), decide_eq_true hk]
      rfl
    · rw [if_neg (mt hkey.1 hk), decide_eq_false hk]
      exact ih

theorem member?_members {t : ToneTracks} {track : Track} {k : Int} {c : Hsla}
    (h : colorAt? t track k = some c) :
    Value.member? (members (colorsOn t track)) (Number.intText k) = some (.list c.components) := by
  obtain ⟨p, hp, rfl⟩ := Option.map_eq_some_iff.1 h
  rw [Value.member?, get?_members, hp]
  rfl

theorem trackOfTheme_toMap {theme : Dict Value} {role : String} {t : ToneTracks} {track : Track}
    {k : Int} {c : Hsla} (htheme : theme.get? role = some (.map (ToneTracks.toMap t)))
    (h : colorAt? t track k = some c) :
    trackOfTheme theme role track = .ok (members (colorsOn t track)) := by
  have htracks : Dict.getD (ToneTracks.toMap t) track.name .null
      = .map (members (colorsOn t track)) := by
    cases track <;> rfl
  have hsome : (members (colorsOn t track)).isEmpty = false := by
    obtain ⟨p, hp, rfl⟩ := Option.map_eq_some_iff.1 h
    cases hcolors : colorsOn t track with
    | nil =>
      rw [hcolors] at hp
      cases hp
    | cons q colors => rfl
  rw [trackOfTheme, Dict.getD, htheme]
  simp only [Option.getD_some, membersOf, htracks, bind, Except.bind]
  rw [hsome]
  rfl

/-- What a theme with the tracks under a role has for a request that a tone answers: the color of
that tone, and with a visibility the same color in the opacity of it. -/
def Picks (t : ToneTracks) (tone : Number) (track : Track) (chosen : Int) : Prop :=
  ∀ (theme : Dict Value) (role : String), theme.get? role = some (.map (ToneTracks.toMap t)) →
    ∃ c, colorAt? t track chosen = some c ∧ pick theme role tone none = .ok c.components
      ∧ ∀ visibility, ∃ x, IsOpacity visibility x
        ∧ pick theme role tone (some visibility) = .ok (c.components.set 3 (.number (.float x)))

theorem picks_of_resolve {track : Track} {chosen : Int} {t : ToneTracks} {c : Hsla}
    (hresolve : resolve tone = .ok (track, chosen)) (hc : colorAt? t track chosen = some c) :
    Picks t tone track chosen := by
  intro theme role htheme
  have htrack := trackOfTheme_toMap htheme hc
  have hmember := member?_members hc
  refine ⟨c, hc, ?plain, fun visibility => ?visible⟩
  case plain =>
    simp only [pick, hresolve, Except.mapError, bind, Except.bind, htrack, hmember]
    rfl
  case visible =>
    obtain ⟨x, hx, hopacity⟩ := exists_isOpacity visibility
    refine ⟨x, hopacity, ?_⟩
    simp only [pick, hresolve, Except.mapError, bind, Except.bind, htrack, hmember, withAlpha,
      components?, Value.elements?, Hsla.components, hx]
    rfl

/-- A tone of a track answers a request: it is nearest on the grid of the track to the rounded and
bounded request, is answered with itself, and has a color on the tracks of every color. -/
structure Answers (tone : Number) (track : Track) (chosen : Int) : Prop where
  resolved : resolve tone = .ok (track, chosen)
  soft_iff : track = .soft ↔ tone.toRat ≤ 30
  nearest : ∃ n, tone.roundHalfUp = .ok n ∧ IsNearest (grid track) (inBounds track n) chosen
  settled : resolve (.int chosen) = .ok (track, chosen)
  picked : ∀ hex mediumAnchor t, tracksOfHex hex mediumAnchor = .ok t → Picks t tone track chosen

theorem exists_answers (hreal : tone.IsReal) (hround : tone.roundHalfUp = .ok n) :
    ∃ chosen, Answers tone (trackOf tone) chosen := by
  have hnearest := isNearest_nearestOn (pairwise_grid (trackOf tone)) (grid_ne_nil (trackOf tone))
    (inBounds (trackOf tone) n)
  have hresolve := resolve_of_roundHalfUp hround
  refine ⟨_, hresolve, trackOf_eq_soft_iff hreal, ⟨n, hround, hnearest⟩,
    resolve_of_mem_grid hnearest.mem, fun hex mediumAnchor t ht => ?_⟩
  obtain ⟨color, -, ht⟩ := bind_eq_ok.1 ht
  cases ht
  obtain ⟨c, hc⟩ := exists_colorAt? color mediumAnchor hnearest.mem
  exact picks_of_resolve hresolve hc

/-- The greater of two requests is not answered with a lower tone. -/
theorem Answers.mono {t u : Number} {a b : Track} {j k : Int} (ht : t.IsReal) (hu : u.IsReal)
    (hle : t.toRat ≤ u.toRat) (hj : Answers t a j) (hk : Answers u b k) : j ≤ k := by
  obtain ⟨m, hm, hjm⟩ := hj.nearest
  obtain ⟨n, hn, hkn⟩ := hk.nearest
  have hsoft : b = .soft → a = .soft := fun h => hj.soft_iff.2 (hle.trans (hk.soft_iff.1 h))
  by_cases hab : a = b
  · subst hab
    exact hjm.mono hkn (inBounds_mono a (Number.roundHalfUp_mono ht hu hle hm hn))
  · cases a with
    | soft =>
      cases b with
      | soft => exact absurd rfl hab
      | solid => exact le_of_mem_grids hjm.mem hkn.mem
    | solid =>
      cases b with
      | soft => cases hsoft rfl
      | solid => exact absurd rfl hab

/-- Both requests are answered, and the second with no lower tone. -/
def AnsweredInOrder (t u : Number) : Prop :=
  ∃ a j b k, Answers t a j ∧ Answers u b k ∧ j ≤ k

theorem Answers.abs_lt {track : Track} {chosen : Int} (hreal : tone.IsReal)
    (h : Answers tone track chosen) : |tone.toRat| < Ratio.overflow := by
  obtain ⟨n, hn, -⟩ := h.nearest
  exact Number.abs_lt_overflow hreal hn

/-- Requests are answered, and in their order, exactly if neither is beyond the floats. The bound
lies halfway between the greatest float and the power of two that follows. -/
theorem answeredInOrder_iff {t u : Number} (ht : t.IsReal) (hu : u.IsReal)
    (hle : t.toRat ≤ u.toRat) : AnsweredInOrder t u
      ↔ |t.toRat| < 2 ^ 1024 - 2 ^ 970 ∧ |u.toRat| < 2 ^ 1024 - 2 ^ 970 := by
  rw [← Ratio.overflow_eq]
  constructor
  · rintro ⟨a, j, b, k, hj, hk, -⟩
    exact ⟨hj.abs_lt ht, hk.abs_lt hu⟩
  · rintro ⟨htlt, hult⟩
    obtain ⟨j, hj⟩ := exists_answers ht (Number.roundHalfUp_of_lt ht htlt)
    obtain ⟨k, hk⟩ := exists_answers hu (Number.roundHalfUp_of_lt hu hult)
    exact ⟨_, j, _, k, hj, hk, hj.mono ht hu hle hk⟩

/-- Tone twelve and a half is answered below tone ninety-five. -/
theorem answeredInOrder_fractional :
    ((Number.float 12.5).IsReal ∧ (Number.int 95).IsReal
        ∧ (Number.float 12.5).toRat ≤ (Number.int 95).toRat)
      ∧ AnsweredInOrder (.float 12.5) (.int 95) := by
  have hreal : (Number.float 12.5).IsReal := by
    change Float.isFinite 12.5 = true
    decide +kernel
  have hvalue : (Number.float 12.5).toRat = 25 / 2 := by
    have hfinite : Binary.ofFloat 12.5 = .finite (25 * 2 ^ 48) (-49) := rfl
    rw [Number.toRat_float hfinite]
    norm_num
  have hle : (Number.float 12.5).toRat ≤ (Number.int 95).toRat := by
    rw [hvalue, Number.toRat_int]
    norm_num
  have hroom : (100 : ℚ) < 2 ^ 1024 - 2 ^ 970 := by
    have h : 100 < Ratio.overflow := by decide +kernel
    rw [← Ratio.overflow_eq]
    exact_mod_cast h
  have hint : (Number.int 95).IsReal := trivial
  refine ⟨⟨hreal, hint, hle⟩, (answeredInOrder_iff hreal hint hle).2 ⟨?_, ?_⟩⟩
  · rw [hvalue, abs_of_pos (by norm_num)]
    exact lt_trans (by norm_num) hroom
  · rw [Number.toRat_int, abs_of_pos (by norm_num)]
    exact lt_trans (by norm_num) hroom

/-- An integer beyond the floats, far above the greatest tone, is not answered with it. -/
theorem not_answeredInOrder_huge :
    ((Number.int (10 ^ 309)).IsReal ∧ resolve (.int (10 ^ 309)) = .error .overflow)
      ∧ ¬AnsweredInOrder (.int (10 ^ 309)) (.int (10 ^ 309)) := by
  have herror : resolve (.int (10 ^ 309)) = .error .overflow := by
    have hbeyond : Ratio.overflow ≤ 10 ^ 309 := by decide +kernel
    refine resolve_of_error (Number.roundHalfUp_of_overflow trivial ?_)
    rw [Number.toRat_int, abs_of_nonneg (by positivity)]
    exact_mod_cast hbeyond
  refine ⟨⟨trivial, herror⟩, ?_⟩
  rintro ⟨a, j, -, -, hj, -, -⟩
  rw [hj.resolved] at herror
  cases herror

end Tone
end AtomicCss

import AtomicCss.Color.Tone
import AtomicCss.Proofs.Results
import Mathlib.Data.Int.ConditionallyCompleteOrder
import Mathlib.Tactic.Linarith
import Mathlib.Tactic.Ring

/-!
# The order of tones

The lightness of the tones divisible by ten leads from white over 90 to the anchor and on to black,
and the tones between lie on the way from one of these to the next. So every lightness is a
percentage, and tones never grow lighter as long as the anchor is no lighter than 90, the lightness
of tone ten. A lighter anchor is lighter than tone ten, which comes before it.
-/
namespace AtomicCss

namespace Tone

/-- The lightness after some of the even steps that lead from one lightness to another. -/
def waypoint (start goal : Int) (steps i : Nat) : Int :=
  nearestQuotient (steps * start + (goal - start) * i) steps

section Waypoint

variable {start goal low high : Int} {steps i : Nat}

theorem nearestQuotient_mul (pos : 0 < steps) (k : Int) : nearestQuotient (steps * k) steps = k :=
  by
  have hle : k ≤ nearestQuotient (steps * k) steps := by
    rw [le_nearestQuotient_iff pos]
    linarith
  have hlt : nearestQuotient (steps * k) steps < k + 1 := by
    rw [nearestQuotient_lt_iff pos]
    linarith
  omega

theorem waypoint_zero (pos : 0 < steps) : waypoint start goal steps 0 = start := by
  rw [waypoint, Nat.cast_zero, Int.mul_zero, Int.add_zero, nearestQuotient_mul pos]

theorem waypoint_last (pos : 0 < steps) : waypoint start goal steps steps = goal := by
  have hgoal : steps * start + (goal - start) * steps = steps * goal := by ring
  rw [waypoint, hgoal, nearestQuotient_mul pos]

/-- On the way down no step leads up. -/
theorem waypoint_antitone (pos : 0 < steps) (h : goal ≤ start) :
    Antitone (waypoint start goal steps) := by
  intro i j hij
  have hsteps : (goal - start) * j ≤ (goal - start) * i :=
    Int.mul_le_mul_of_nonpos_left (by omega) (by exact_mod_cast hij)
  exact nearestQuotient_le_nearestQuotient pos (by omega)

theorem waypoint_monotone (pos : 0 < steps) (h : start ≤ goal) :
    Monotone (waypoint start goal steps) := by
  intro i j hij
  have hsteps : (goal - start) * i ≤ (goal - start) * j :=
    Int.mul_le_mul_of_nonneg_left (by exact_mod_cast hij) (by omega)
  exact nearestQuotient_le_nearestQuotient pos (by omega)

theorem waypoint_mem (pos : 0 < steps) (hi : i ≤ steps) (hstart : low ≤ start ∧ start ≤ high)
    (hgoal : low ≤ goal ∧ goal ≤ high) :
    low ≤ waypoint start goal steps i ∧ waypoint start goal steps i ≤ high := by
  have hends : waypoint start goal steps 0 = start ∧ waypoint start goal steps steps = goal :=
    ⟨waypoint_zero pos, waypoint_last pos⟩
  rcases Int.le_total goal start with h | h
  · have hfirst := waypoint_antitone pos h (Nat.zero_le i)
    have hlast := waypoint_antitone pos h hi
    omega
  · have hfirst := waypoint_monotone pos h (Nat.zero_le i)
    have hlast := waypoint_monotone pos h hi
    omega

end Waypoint

variable {anchor : Int} {tone : Nat}

theorem beforeAnchor_eq (anchor : Int) (i : Nat) : beforeAnchor anchor i = waypoint 90 anchor 4 i :=
  by
  have hway : 4 * 90 - (90 - anchor) * i = (4 : Nat) * 90 + (anchor - 90) * i := by
    push_cast
    ring
  rw [beforeAnchor, hway, waypoint]

theorem afterAnchor_eq (anchor : Int) (i : Nat) : afterAnchor anchor i = waypoint anchor 0 5 i := by
  have hway : 5 * anchor - anchor * i = (5 : Nat) * anchor + (0 - anchor) * i := by
    push_cast
    ring
  rw [afterAnchor, hway, waypoint]

theorem between_eq (start goal : Int) (i : Nat) : between start goal i = waypoint start goal 10 i :=
  rfl

/-- Halfway is five steps out of ten. -/
theorem nearestQuotient_two (start goal : Int) :
    nearestQuotient (start + goal) 2 = waypoint start goal 10 5 := by
  rw [waypoint, nearestQuotient, nearestQuotient]
  push_cast
  omega

/-- The lightness of a tone divisible by ten. -/
def decade (anchor : Int) (k : Nat) : Int := mainLightness anchor (10 * k)

theorem decade_zero (anchor : Int) : decade anchor 0 = 100 := rfl

theorem decade_before {k : Nat} (hk : 1 ≤ k ∧ k ≤ 5) :
    decade anchor k = waypoint 90 anchor 4 (k - 1) := by
  obtain rfl | h | rfl : k = 1 ∨ (2 ≤ k ∧ k ≤ 4) ∨ k = 5 := by omega
  · rw [waypoint_zero (by decide)]
    rfl
  · rw [← beforeAnchor_eq, decade, mainLightness, if_neg (by omega), if_pos (by omega),
      Nat.mul_div_cancel_left k (by decide)]
  · rw [waypoint_last (by decide)]
    rfl

theorem decade_after {k : Nat} (hk : 5 ≤ k ∧ k ≤ 10) :
    decade anchor k = waypoint anchor 0 5 (k - 5) := by
  obtain rfl | h | rfl : k = 5 ∨ (6 ≤ k ∧ k ≤ 9) ∨ k = 10 := by omega
  · rw [waypoint_zero (by decide)]
    rfl
  · rw [← afterAnchor_eq, decade, mainLightness, if_neg (by omega), if_neg (by omega),
      if_neg (by omega), if_pos (by omega), Nat.mul_div_cancel_left k (by decide)]
  · rw [waypoint_last (by decide)]
    rfl

theorem decade_beyond {k : Nat} (hk : 10 ≤ k) : decade anchor k = 0 := by
  rw [decade, mainLightness, if_neg (by omega), if_neg (by omega), if_neg (by omega),
    if_neg (by omega)]

/-- Downwards from white over 90 and the anchor to black. -/
theorem decade_antitone (hanchor : 0 ≤ anchor ∧ anchor ≤ 90) : Antitone (decade anchor) := by
  refine antitone_nat_of_succ_le fun k => ?_
  obtain rfl | h | h | h : k = 0 ∨ (1 ≤ k ∧ k ≤ 4) ∨ (5 ≤ k ∧ k ≤ 9) ∨ 10 ≤ k := by omega
  · have hten : decade anchor 1 = 90 := rfl
    rw [decade_zero, hten]
    decide
  · rw [decade_before (by omega), decade_before (by omega)]
    exact waypoint_antitone (by decide) hanchor.2 (by omega)
  · rw [decade_after (by omega), decade_after (by omega)]
    exact waypoint_antitone (by decide) hanchor.1 (by omega)
  · rw [decade_beyond h, decade_beyond (by omega)]

theorem decade_mem (hanchor : 0 ≤ anchor ∧ anchor ≤ 100) (k : Nat) :
    0 ≤ decade anchor k ∧ decade anchor k ≤ 100 := by
  obtain rfl | h | h | h : k = 0 ∨ (1 ≤ k ∧ k ≤ 4) ∨ (5 ≤ k ∧ k ≤ 9) ∨ 10 ≤ k := by omega
  · rw [decade_zero]
    decide
  · rw [decade_before (by omega)]
    exact waypoint_mem (by decide) (by omega) (by decide) hanchor
  · rw [decade_after (by omega)]
    exact waypoint_mem (by decide) (by omega) hanchor (by decide)
  · rw [decade_beyond h]
    decide

/-- The lightness of a tone, on the way between those of its neighbours divisible by ten. -/
def lightness (anchor : Int) (tone : Nat) : Int :=
  waypoint (decade anchor (tone / 10)) (decade anchor (tone / 10 + 1)) 10 (tone % 10)

theorem lightness_of_mod_eq_zero (h : tone % 10 = 0) :
    lightness anchor tone = mainLightness anchor tone := by
  have htone : 10 * (tone / 10) = tone := by omega
  rw [lightness, h, waypoint_zero (by decide), decade, htone]

theorem softLightness_eq (anchor : Int) (tone : Nat) :
    softLightness anchor tone = lightness anchor tone := by
  have hstart : mainLightness anchor (tone / 10 * 10) = decade anchor (tone / 10)
      ∧ mainLightness anchor (tone / 10 * 10 + 10) = decade anchor (tone / 10 + 1) := by
    rw [decade, decade, Nat.mul_comm, Nat.mul_add]
    exact ⟨rfl, rfl⟩
  rw [softLightness]
  split
  · next h =>
    by_cases hten : tone % 10 = 0
    · rw [lightness_of_mod_eq_zero hten]
    · -- the first tones lose one percent each
      have hsmall : tone < 10 := by omega
      have hway : ((10 : Nat) : Int) * 100 + (90 - 100) * (tone : Nat)
          = (10 : Nat) * (100 - tone : Int) := by
        push_cast
        ring
      rw [lightness, Nat.div_eq_of_lt hsmall, Nat.mod_eq_of_lt hsmall]
      change mainLightness anchor tone = waypoint 100 90 10 tone
      rw [waypoint, hway, nearestQuotient_mul (by decide), mainLightness, if_pos (by omega)]
  · have hrest : tone - tone / 10 * 10 = tone % 10 := by omega
    simp only [hstart, hrest, between_eq, lightness]

theorem solidLightness_eq (h : tone % 5 = 0) :
    solidLightness anchor tone = lightness anchor tone := by
  rw [solidLightness]
  split
  · next hten => rw [lightness_of_mod_eq_zero hten]
  · have hfive : tone % 10 = 5 := by omega
    have hdown : tone - 5 = 10 * (tone / 10) := by omega
    have hup : tone + 5 = 10 * (tone / 10 + 1) := by omega
    rw [hdown, hup, nearestQuotient_two, lightness, hfive, decade, decade]

/-- If no tone divisible by ten is lighter than the one before it, no tone is. -/
theorem lightness_antitone (hanchor : 0 ≤ anchor ∧ anchor ≤ 90) : Antitone (lightness anchor) := by
  intro s t hst
  have hanti := decade_antitone hanchor
  have hway : ∀ t, decade anchor (t / 10 + 1) ≤ lightness anchor t
      ∧ lightness anchor t ≤ decade anchor (t / 10) := by
    intro t
    have hstep := hanti (Nat.le_succ (t / 10))
    exact waypoint_mem (by decide) (by omega) ⟨hstep, Int.le_refl _⟩ ⟨Int.le_refl _, hstep⟩
  obtain hsame | hless : s / 10 = t / 10 ∨ s / 10 + 1 ≤ t / 10 := by omega
  · rw [lightness, lightness, hsame]
    exact waypoint_antitone (by decide) (hanti (Nat.le_succ _)) (by omega)
  · calc lightness anchor t ≤ decade anchor (t / 10) := (hway t).2
      _ ≤ decade anchor (s / 10 + 1) := hanti hless
      _ ≤ lightness anchor s := (hway s).1

theorem lightness_mem (hanchor : 0 ≤ anchor ∧ anchor ≤ 100) (tone : Nat) :
    0 ≤ lightness anchor tone ∧ lightness anchor tone ≤ 100 :=
  waypoint_mem (by decide) (by omega) (decade_mem hanchor _) (decade_mem hanchor _)

end Tone

namespace ToneTracks

def colors (t : ToneTracks) : List (Nat × Hsla) := t.soft ++ t.solid

/-- No color is lighter than one at a lower tone. -/
def NeverLightens (t : ToneTracks) : Prop :=
  ∀ m ∈ t.colors, ∀ n ∈ t.colors, m.1 ≤ n.1 → n.2.lightness ≤ m.2.lightness

/-- The lightness of every color is a percentage. -/
def InPercent (t : ToneTracks) : Prop :=
  ∀ m ∈ t.colors, 0 ≤ m.2.lightness ∧ m.2.lightness ≤ 100

end ToneTracks

namespace Tone

variable {color : Hsla} {mediumAnchor : Bool}

/-- The lightness that a color's tracks are anchored at. -/
def anchorOf (color : Hsla) (mediumAnchor : Bool) : Int :=
  if mediumAnchor then 50 else color.lightness

/-- The colors of a scale differ in their lightness only. -/
theorem colors_tracks (color : Hsla) (mediumAnchor : Bool) : (tracks color mediumAnchor).colors
    = (softTones ++ solidTones).map fun t =>
      (t, { color with lightness := lightness (anchorOf color mediumAnchor) t }) := by
  rw [ToneTracks.colors, List.map_append]
  congr 1
  · refine List.map_congr_left fun t _ => ?_
    rw [← softLightness_eq]
    rfl
  · refine List.map_congr_left fun t ht => ?_
    have hfive : ∀ t ∈ solidTones, t % 5 = 0 := by decide
    rw [← solidLightness_eq (hfive t ht)]
    rfl

theorem lightness_of_mem_colors {m : Nat × Hsla} (hm : m ∈ (tracks color mediumAnchor).colors) :
    m.2.lightness = lightness (anchorOf color mediumAnchor) m.1 := by
  rw [colors_tracks] at hm
  obtain ⟨t, -, rfl⟩ := List.mem_map.1 hm
  rfl

/-- A scale never grows lighter exactly if its anchor is no lighter than tone ten. -/
theorem neverLightens_tracks (hcolor : 0 ≤ color.lightness) :
    (tracks color mediumAnchor).NeverLightens ↔ mediumAnchor = true ∨ color.lightness ≤ 90 := by
  have hanchor : anchorOf color mediumAnchor ≤ 90
      ↔ mediumAnchor = true ∨ color.lightness ≤ 90 := by
    rw [anchorOf]
    cases mediumAnchor <;> simp
  rw [← hanchor]
  constructor
  · intro h
    have hmem : ∀ t ∈ softTones ++ solidTones,
        (t, { color with lightness := lightness (anchorOf color mediumAnchor) t })
          ∈ (tracks color mediumAnchor).colors := by
      intro t ht
      rw [colors_tracks]
      exact List.mem_map_of_mem ht
    have hten := h _ (hmem 10 (by decide)) _ (hmem 50 (by decide)) (by decide : 10 ≤ 50)
    rwa [lightness_of_mod_eq_zero rfl, lightness_of_mod_eq_zero rfl] at hten
  · intro h m hm n hn hmn
    have hnonneg : 0 ≤ anchorOf color mediumAnchor := by
      rw [anchorOf]
      split
      · decide
      · exact hcolor
    rw [lightness_of_mem_colors hm, lightness_of_mem_colors hn]
    exact lightness_antitone ⟨hnonneg, h⟩ hmn

theorem inPercent_tracks (hcolor : 0 ≤ color.lightness ∧ color.lightness ≤ 100) :
    (tracks color mediumAnchor).InPercent := by
  intro m hm
  rw [lightness_of_mem_colors hm]
  refine lightness_mem ?_ m.1
  rw [anchorOf]
  split
  · decide
  · exact hcolor

end Tone

namespace Color

theorem hexValue?_lt {c : Char} {n : Nat} (h : Digit.hexValue? c = some n) : n < 16 := by
  have hrange : ∀ {a b : Char}, a ≤ c ∧ c ≤ b → a.toNat ≤ c.toNat ∧ c.toNat ≤ b.toNat :=
    fun h => h
  rw [Digit.hexValue?] at h
  split at h
  · next hc =>
    have hrange : '0'.toNat ≤ c.toNat ∧ c.toNat ≤ '9'.toNat := hrange hc
    simp at hrange h
    omega
  · split at h
    · next hc =>
      have hrange : 'a'.toNat ≤ c.toNat ∧ c.toNat ≤ 'f'.toNat := hrange hc
      simp at hrange h
      omega
    · split at h
      · next hc =>
        have hrange : 'A'.toNat ≤ c.toNat ∧ c.toNat ≤ 'F'.toNat := hrange hc
        simp at hrange h
        omega
      · cases h

theorem mapM_hexValue?_lt {cs : List Char} {ns : List Nat}
    (h : cs.mapM Digit.hexValue? = some ns) : ∀ n ∈ ns, n < 16 := by
  induction cs generalizing ns with
  | nil =>
    cases h
    simp
  | cons c cs ih =>
    simp only [List.mapM_cons, Option.bind_eq_bind, Option.bind_eq_some_iff, Option.pure_def,
      Option.some.injEq] at h
    obtain ⟨n, hn, ns, hns, rfl⟩ := h
    simp only [List.mem_cons, forall_eq_or_imp]
    exact ⟨hexValue?_lt hn, ih hns⟩

theorem channels?_le {ns : List Nat} {r g b : Nat} (hns : ∀ n ∈ ns, n < 16)
    (h : channels? ns = some (r, g, b)) : r ≤ 255 ∧ g ≤ 255 ∧ b ≤ 255 := by
  unfold channels? at h
  split at h
  · simp only [List.mem_cons, forall_eq_or_imp] at hns
    cases h
    omega
  · simp only [List.mem_cons, forall_eq_or_imp] at hns
    cases h
    omega
  · cases h

theorem lightnessOf_mem {r g b : Nat} (hr : r ≤ 255) (hg : g ≤ 255) (hb : b ≤ 255) :
    0 ≤ lightnessOf r g b ∧ lightnessOf r g b ≤ 100 := by
  rw [lightnessOf, ← Int.lt_add_one_iff (b := 100), le_nearestQuotient_iff (by decide),
    nearestQuotient_lt_iff (by decide)]
  omega

theorem lightness_of_hslaOfHex {hex : String} {color : Hsla} (h : hslaOfHex hex = .ok color) :
    0 ≤ color.lightness ∧ color.lightness ≤ 100 := by
  simp only [hslaOfHex] at h
  split at h
  · next r g b hchannels =>
    obtain ⟨ns, hns, hchannels⟩ := Option.bind_eq_some_iff.1 hchannels
    obtain ⟨hr, hg, hb⟩ := channels?_le (mapM_hexValue?_lt hns) hchannels
    cases h
    exact lightnessOf_mem hr hg hb
  · cases h

end Color

namespace Tone

/-- Every hexadecimal color has a scale of percentages. No tone is lighter than a lower one exactly
if the color itself is no lighter than 90, or a medium anchor is taken for it. -/
theorem scale_neverLightens_iff {hex : String} {color : Hsla}
    (h : Color.hslaOfHex hex = .ok color) (mediumAnchor : Bool) :
    ∃ t, tracksOfHex hex mediumAnchor = .ok t ∧ t.InPercent
      ∧ (t.NeverLightens ↔ mediumAnchor = true ∨ color.lightness ≤ 90) := by
  have hcolor := Color.lightness_of_hslaOfHex h
  refine ⟨tracks color mediumAnchor, ?_, inPercent_tracks hcolor, neverLightens_tracks hcolor.1⟩
  rw [tracksOfHex, h]
  rfl

theorem scale_neverLightens_blue : Color.hslaOfHex "#3366cc" = .ok (Color.ofChannels 51 102 204)
    ∧ ∃ t, tracksOfHex "#3366cc" false = .ok t ∧ t.InPercent ∧ t.NeverLightens := by
  have hcolor : Color.hslaOfHex "#3366cc" = .ok (Color.ofChannels 51 102 204) := rfl
  obtain ⟨t, ht, hpercent, hiff⟩ := scale_neverLightens_iff hcolor false
  exact ⟨hcolor, t, ht, hpercent, hiff.2 (.inr (by decide : Color.lightnessOf 51 102 204 ≤ 90))⟩

/-- White itself is lighter than its tone ten. -/
theorem scale_lightens_white : ∃ t, tracksOfHex "#ffffff" false = .ok t
    ∧ (∃ m ∈ t.soft, ∃ n ∈ t.solid, m.1 = 10 ∧ m.2.lightness = 90 ∧ n.1 = 50
      ∧ n.2.lightness = 100) ∧ ¬t.NeverLightens := by
  have hmem : ∀ {track : List Nat} {k : Nat} (f : Nat → Hsla), k ∈ track →
      (k, f k) ∈ track.map fun t => (t, f t) := fun f hk => List.mem_map_of_mem hk
  refine ⟨tracks (Color.ofChannels 255 255 255) false, rfl,
    ⟨_, hmem _ (by decide : 10 ∈ softTones), _, hmem _ (by decide : 50 ∈ solidTones), rfl,
      by decide, rfl, by decide⟩, ?_⟩
  rw [neverLightens_tracks (by decide : (0 : Int) ≤ Color.lightnessOf 255 255 255)]
  decide

end Tone
end AtomicCss

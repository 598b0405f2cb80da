import AtomicCss.Color.Hsla
import AtomicCss.Proofs.WholeFloats

/-!
# Colors of normalized numbers

Within a key the whole floats of a color are written as integers. The arithmetic of colors does not
look at the sign of zero, which is all that this may change, so the color stays the same.
-/
namespace AtomicCss.Color

/-- A component and its normalized form fail alike, or are floats of the same number. -/
theorem component_normalize (v : Value) :
    (∃ e, component v = .error e ∧ component v.normalize = .error e)
      ∨ ∃ x y, component v = .ok x ∧ component v.normalize = .ok y ∧ x.Agrees y := by
  have hself : v.normalize = v →
      (∃ e, component v = .error e ∧ component v.normalize = .error e)
        ∨ ∃ x y, component v = .ok x ∧ component v.normalize = .ok y ∧ x.Agrees y := by
    intro h
    rw [h]
    cases component v with
    | error e => exact .inl ⟨e, rfl, rfl⟩
    | ok x => exact .inr ⟨x, x, rfl, rfl, .refl x⟩
  cases v with
  | null | bool _ | text _ => exact hself rfl
  | list _ | map _ => exact .inl ⟨.notNumeric, rfl, rfl⟩
  | number n =>
    cases n with
    | int _ => exact hself rfl
    | float x =>
      cases hint : x.integer? with
      | none => exact hself (by simp [Value.normalize, Number.normalize, hint])
      | some n =>
        obtain ⟨y, hy, hagrees⟩ := Float.toFloat_of_integer? hint
        have hnormal : component (Value.number (.float x)).normalize = .ok y := by
          simpa [Value.normalize, Number.normalize, hint, component]
        exact .inr ⟨x, y, rfl, hnormal, hagrees⟩

theorem opaqueAlpha_normalize (v : Value) :
    opaqueAlpha (some v.normalize) = opaqueAlpha (some v) := by
  cases v with
  | number n => exact n.equal_normalize 1
  | null | bool _ | text _ | list _ | map _ => rfl

theorem channel_congr {x y : Float} (h : x.Agrees y) : channel x = channel y := by
  have hbin := (h.mul (.refl 255)).ofFloat_eq
  simp only [channel, Number.roundHalfUp, Number.toFloat, bind, Except.bind, hbin]

theorem rgb_congr {h h' s s' l l' : Float} (hh : h.Agrees h') (hs : s.Agrees s')
    (hl : l.Agrees l') :
    (rgb h s l).1.Agrees (rgb h' s' l').1 ∧ (rgb h s l).2.1.Agrees (rgb h' s' l').2.1
      ∧ (rgb h s l).2.2.Agrees (rgb h' s' l').2.2 := by
  have hhue : h.modulo 360 = h'.modulo 360 := by
    simp only [Float.modulo, Float.ratio?, hh.ofFloat_eq]
  have hchroma : ((1 - (2 * l - 1).abs) * s).Agrees ((1 - (2 * l' - 1).abs) * s') :=
    ((Float.Agrees.refl 1).sub (((Float.Agrees.refl 2).mul hl).sub (.refl 1)).abs).mul hs
  have hsecond := hchroma.mul (.refl (1 - ((h'.modulo 360 / 60).modulo 2 - 1).abs))
  have hleast := hl.sub (hchroma.div 2)
  have hnone := (Float.Agrees.refl 0.0).add hleast
  simp only [rgb, hhue]
  split
  · exact ⟨hchroma.add hleast, hsecond.add hleast, hnone⟩
  split
  · exact ⟨hsecond.add hleast, hchroma.add hleast, hnone⟩
  split
  · exact ⟨hnone, hchroma.add hleast, hsecond.add hleast⟩
  split
  · exact ⟨hnone, hsecond.add hleast, hchroma.add hleast⟩
  split
  · exact ⟨hsecond.add hleast, hnone, hchroma.add hleast⟩
  · exact ⟨hchroma.add hleast, hnone, hsecond.add hleast⟩

/-- Whole floats and the integers they become give the same color. -/
theorem hexOfComponents_normalize (h s l : Value) (more : List Value) :
    hexOfComponents (Value.normalizeItems (h :: s :: l :: more))
      = hexOfComponents (h :: s :: l :: more) := by
  simp only [hexOfComponents, Value.normalizeItems]
  refine congrArg (Except.mapError ColorError.number) ?_
  rcases component_normalize h with ⟨e, hh, hh'⟩ | ⟨hx, hy, hh, hh', hue⟩
  · rw [hh, hh']
    rfl
  rcases component_normalize s with ⟨e, hs, hs'⟩ | ⟨sx, sy, hs, hs', saturation⟩
  · rw [hh, hh', hs, hs']
    rfl
  rcases component_normalize l with ⟨e, hl, hl'⟩ | ⟨lx, ly, hl, hl', lightness⟩
  · rw [hh, hh', hs, hs', hl, hl']
    rfl
  obtain ⟨red, green, blue⟩ := rgb_congr hue (saturation.div 100) (lightness.div 100)
  rw [hh, hh', hs, hs', hl, hl']
  simp only [bind, Except.bind, channel_congr red, channel_congr green, channel_congr blue]
  cases more with
  | nil => rfl
  | cons a _ =>
    simp only [Value.normalizeItems, List.head?_cons, opaqueAlpha_normalize]
    rcases component_normalize a with ⟨e, ha, ha'⟩ | ⟨ax, ay, ha, ha', opacity⟩
    · simp only [ha, ha']
    · simp only [ha, ha', channel_congr opacity]

/-- A list that is a color is the same color with its numbers normalized. -/
theorem hexOfHsla_normalize {items : List Value} {hex : String}
    (h : hexOfHsla (.list items) = .ok hex) : hexOfHsla (Value.list items).normalize = .ok hex := by
  change hexOfComponents items = .ok hex at h
  change hexOfComponents (Value.normalizeItems items) = .ok hex
  match items with
  | [] | [_] | [_, _] => cases h
  | h :: s :: l :: more => rwa [hexOfComponents_normalize]

end AtomicCss.Color

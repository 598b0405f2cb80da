import AtomicCss.Color.Hsla
import AtomicCss.Proofs.Results

/-!
# The texts of colors

A color is written as a number sign and hexadecimal digits, whatever its channels are.
-/
namespace AtomicCss.Color

def hexDigits : List Char := "0123456789abcdef".toList

def IsHex (text : String) : Prop :=
  ∃ digits, text.toList = '#' :: digits ∧ ∀ c ∈ digits, c ∈ hexDigits

theorem mem_hexDigits {width n : Nat} {c : Char} (h : c ∈ Quoted.hex width n) : c ∈ hexDigits := by
  have hdigit : ∀ n < 16, Quoted.hexDigit n ∈ hexDigits := by decide
  induction width generalizing n with
  | zero => cases h
  | succ width ih =>
    rw [Quoted.hex, List.mem_append, List.mem_singleton] at h
    rcases h with h | rfl
    · exact ih h
    · exact hdigit _ (Nat.mod_lt n (by decide))

theorem mem_hexDigits_of_channel {x : Float} {text : String} (h : channel x = .ok text) :
    ∀ c ∈ text.toList, c ∈ hexDigits := by
  intro c hc
  simp only [channel, bind_eq_ok, pure_eq_ok] at h
  obtain ⟨n, -, rfl⟩ := h
  exact mem_hexDigits (by simpa using hc)

theorem IsHex.append {text digits : String} (h : IsHex text)
    (hdigits : ∀ c ∈ digits.toList, c ∈ hexDigits) : IsHex (text ++ digits) := by
  obtain ⟨front, htext, hfront⟩ := h
  refine ⟨front ++ digits.toList, by simp [htext], fun c hc => ?_⟩
  exact (List.mem_append.1 hc).elim (hfront c) (hdigits c)

theorem isHex_of_hexOfComponents {components : List Value} {hex : String}
    (h : hexOfComponents components = .ok hex) : IsHex hex := by
  match components with
  | hue :: saturation :: lightness :: more =>
    simp only [hexOfComponents, mapError_eq_ok, bind_eq_ok] at h
    obtain ⟨_, -, _, -, _, -, red, hred, green, hgreen, blue, hblue, h⟩ := h
    have hsign : IsHex "#" := ⟨[], rfl, by simp⟩
    have hsolid : IsHex ("#" ++ red ++ green ++ blue) :=
      ((hsign.append (mem_hexDigits_of_channel hred)).append
        (mem_hexDigits_of_channel hgreen)).append (mem_hexDigits_of_channel hblue)
    split at h
    · rwa [← pure_eq_ok.1 h]
    · split at h
      · rwa [← pure_eq_ok.1 h]
      · simp only [bind_eq_ok, pure_eq_ok] at h
        obtain ⟨_, -, alpha, halpha, rfl⟩ := h
        exact hsolid.append (mem_hexDigits_of_channel halpha)
  | [] => cases h
  | [_] => cases h
  | [_, _] => cases h

theorem isHex_of_hexOfHsla {color : Value} {hex : String} (h : hexOfHsla color = .ok hex) :
    IsHex hex := by
  unfold hexOfHsla at h
  split at h
  · dsimp only at h
    split at h <;> cases h
  · split at h
    · exact isHex_of_hexOfComponents h
    · cases h

theorem IsHex.notMem {text : String} (h : IsHex text) {c : Char} (hc : c ≠ '#' ∧ c ∉ hexDigits) :
    c ∉ text.toList := by
  obtain ⟨digits, htext, hdigits⟩ := h
  rw [htext, List.mem_cons]
  rintro (rfl | hmem)
  · exact hc.1 rfl
  · exact hc.2 (hdigits c hmem)

end AtomicCss.Color

import AtomicCss.Proofs.ColorTexts
import AtomicCss.Proofs.FloatQuotients
import AtomicCss.Proofs.RuleFailures
import AtomicCss.Proofs.ShadowRules

/-!
# The lengths of rules

The rules of scales, border radii and shadows set lengths, and these are read off the texts of the
rules. Scales and radii take finite numbers only, so their lengths are decimal numbers with a unit.
The offsets of a shadow may be too large for a float, and then their lengths are no numbers.

Main definitions: `Rule.lengths`, the lengths in the text of a rule, and `IsLength`, what a length
should look like.
-/
namespace AtomicCss

def IsDigits (cs : List Char) : Prop := cs ≠ [] ∧ ∀ c ∈ cs, c.isDigit = true

/-- A decimal number: digits that may have a sign before them, and a fraction and an exponent after
them. -/
def IsDecimal (cs : List Char) : Prop :=
  ∃ sign whole fraction exponent, cs = sign ++ whole ++ fraction ++ exponent
    ∧ (sign = [] ∨ sign = ['-'])
    ∧ IsDigits whole
    ∧ (fraction = [] ∨ ∃ ds, fraction = '.' :: ds ∧ IsDigits ds)
    ∧ (exponent = [] ∨ ∃ s ds, exponent = 'e' :: s :: ds ∧ (s = '+' ∨ s = '-') ∧ IsDigits ds)

/-- A length: zero, or a decimal number with its unit. -/
def IsLength (cs : List Char) : Prop :=
  cs = ['0'] ∨ ∃ number, IsDecimal number
    ∧ (cs = number ++ "px".toList ∨ cs = number ++ "rem".toList)

theorem not_isLength_of_noDigit {cs : List Char} (h : cs.any Char.isDigit = false) :
    ¬IsLength cs := by
  intro hlength
  rw [List.any_eq_false] at h
  rcases hlength with rfl | ⟨number, ⟨sign, whole, fraction, exponent, rfl, -, hwhole, -⟩, hunit⟩
  · exact h '0' List.mem_cons_self rfl
  · obtain ⟨c, hc⟩ := List.exists_mem_of_ne_nil _ hwhole.1
    refine h c ?_ (hwhole.2 c hc)
    rcases hunit with rfl | rfl <;> simp [hc]

namespace Decimal

theorem isDigits_toDigits (n : Nat) : IsDigits (Nat.toDigits 10 n) :=
  ⟨List.length_pos_iff.1 Nat.length_toDigits_pos, fun _ hc => isDigit_of_mem_toDigits hc⟩

theorem Written.IsFloat.isDecimal {w : Written} (hw : w.IsFloat) {sign : List Char}
    (hsign : sign = [] ∨ sign = ['-']) : IsDecimal (sign ++ w.chars) := by
  obtain ⟨c, cs, hwhole⟩ : ∃ c cs, w.whole = c :: cs := by
    rcases hw.front with h | ⟨c, cs, h, -⟩
    · exact ⟨_, _, h⟩
    · exact ⟨c, cs, h⟩
  refine ⟨sign, w.whole, if w.fraction.isEmpty then [] else '.' :: w.fraction,
    exponentChars w.exponent, by simp [chars], hsign, ⟨by simp [hwhole], hw.whole⟩, ?_, ?_⟩
  · by_cases hfraction : w.fraction = []
    · exact .inl (by simp [hfraction])
    · exact .inr ⟨w.fraction, by simp [hfraction], hfraction, hw.fraction⟩
  · cases w.exponent with
    | none => exact .inl rfl
    | some e =>
      obtain ⟨ds, htext, hne, hdigit, -⟩ := exists_exponentText e
      refine .inr ⟨_, ds, congrArg _ htext, ?_, hne, hdigit⟩
      split
      · exact .inr rfl
      · exact .inl rfl

end Decimal

namespace Number

/-- A finite number is written as a decimal number. -/
theorem isDecimal_text {x : Float} (hx : x.isFinite = true) :
    IsDecimal (Number.float x).normalize.text.toList := by
  rw [normalize]
  cases x.integer? with
  | some n =>
    refine ⟨if n < 0 then ['-'] else [], _, [], [], ?_, ?_, Decimal.isDigits_toDigits n.natAbs,
      .inl rfl, .inl rfl⟩
    · rw [text, toList_intText, List.append_nil, List.append_nil]
    · split <;> simp
  | none =>
    obtain ⟨m, q, hbinary⟩ := Float.exists_of_isFinite hx
    obtain ⟨w, htext, hw, -⟩ := Decimal.exists_text .program hbinary
    rw [text, htext]
    exact hw.isDecimal (by split <;> simp)

end Number

namespace Length

/-- Pixels are written as a length exactly if their number is finite: the words for an infinity and
for no number have no digits. -/
theorem isLength_px_iff {x : Float} :
    IsLength (px (Number.float x)).toList ↔ x.isFinite = true := by
  constructor
  · intro h
    by_contra hx
    have hnone : (px (Number.float x)).toList.any Char.isDigit = false := by
      cases hbinary : Binary.ofFloat x with
      | finite m q => exact absurd (Float.isFinite_of_ofFloat hbinary) hx
      | infinite negative =>
        rw [Float.eq_of_infinite hbinary]
        cases x.signBit <;> decide +kernel
      | notANumber =>
        rw [Float.eq_of_notANumber hbinary]
        decide +kernel
    exact not_isLength_of_noDigit hnone h
  · intro hx
    rw [px]
    split
    · exact .inl rfl
    · exact .inr ⟨_, Number.isDecimal_text hx, .inl (String.toList_append ..)⟩

theorem isFinite_units {x units : Float} (hx : x.isFinite = true)
    (h : (Number.float x).divide rootPixels.count = .ok units) : units.isFinite = true := by
  have hroot : (Number.toFloat 16).toOption.map Float.isLarge = some true := by decide +kernel
  obtain ⟨root, hroot, hlarge⟩ := exists_of_toOption_map hroot
  simp only [Amount.count, rootPixels, Number.divide, bind_eq_ok] at h
  obtain ⟨y, hy, root', hroot', h⟩ := h
  obtain rfl : x = y := Except.ok.inj hy
  obtain rfl : root = root' := Except.ok.inj (hroot.symm.trans hroot')
  split at h
  · cases h
  · obtain rfl := Except.ok.inj h
    exact Float.isFinite_div hx hlarge

/-- A finite number of pixels has a length in root-relative units too. -/
theorem isLength_rem {x : Float} (hx : x.isFinite = true) {css : String}
    (h : rem (Number.float x) rootPixels = .ok css) : IsLength css.toList := by
  rw [rem] at h
  split at h
  · obtain rfl := Except.ok.inj h
    exact .inl rfl
  · simp only [bind_eq_ok, pure_eq_ok] at h
    obtain ⟨units, hunits, rfl⟩ := h
    have hfinite := isFinite_units hx hunits
    exact .inr ⟨_, Number.isDecimal_text hfinite, .inr (String.toList_append ..)⟩

end Length

namespace Rule

def declaration (css : String) : List Char := (css.toList.splitOn '\x7b').getLastD []

/-- The lengths that a rule sets: the words after the property, but for colors and braces. -/
def lengths (css : String) : List (List Char) :=
  (((declaration css).splitOn ' ').drop 2).filter fun word => '#' ∉ word ∧ '\x7d' ∉ word

/-- A word of a declaration. -/
structure IsValue (value : String) : Prop where
  space : ' ' ∉ value.toList
  opening : '\x7b' ∉ value.toList
  closing : '\x7d' ∉ value.toList

/-- A word that is not taken for a color. -/
def IsAmount (value : String) : Prop := IsValue value ∧ '#' ∉ value.toList

theorem isAmount_of_notMem {value : String} (h : ∀ c : Char, c.isDigit = false → c ∉ Number.marks →
    c ∉ "pxrem".toList → c ∉ value.toList) : IsAmount value where
  left := ⟨h ' ' (by decide) (by decide) (by decide), h '\x7b' (by decide) (by decide) (by decide),
    h '\x7d' (by decide) (by decide) (by decide)⟩
  right := h '#' (by decide) (by decide) (by decide)

theorem isAmount_pixels (x : Float) : IsAmount (pixels x) := by
  refine isAmount_of_notMem fun c hdigit hmark hunit => ?_
  exact Length.notMem_px hdigit hmark (fun hc => hunit (List.mem_of_mem_take (i := 2) hc)) _

theorem isAmount_rem {x : Float} {css : String}
    (h : Length.rem (Number.float x) Length.rootPixels = .ok css) : IsAmount css := by
  refine isAmount_of_notMem fun c hdigit hmark hunit => ?_
  rw [Length.rem] at h
  split at h
  · obtain rfl := Except.ok.inj h
    rintro hc
    obtain rfl : c = '0' := by simpa using hc
    cases hdigit
  · simp only [bind_eq_ok, pure_eq_ok] at h
    obtain ⟨units, -, rfl⟩ := h
    have htext := Number.notMem_text hdigit hmark (Number.float units).normalize
    have hrem : c ∉ "rem".toList := fun hc => hunit (List.mem_of_mem_drop (i := 2) hc)
    simpa [Amount.text, htext] using hrem

theorem isAmount_scaleLength {p : ScaleProperty} {x : Float} {css : String}
    (h : scaleLength p x = .ok css) : IsAmount css := by
  cases p
  case textSize => exact isAmount_rem h
  all_goals exact Except.ok.inj h ▸ isAmount_pixels x

theorem isLength_scaleLength {p : ScaleProperty} {x : Float} (hx : x.isFinite = true)
    {css : String} (h : scaleLength p x = .ok css) : IsLength css.toList := by
  cases p
  case textSize => exact Length.isLength_rem hx h
  all_goals exact Except.ok.inj h ▸ Length.isLength_px_iff.2 hx

theorem declaration_eq {css front rest : String} (hcss : css = front ++ "\x7b" ++ rest)
    (hrest : '\x7b' ∉ rest.toList) : declaration css = rest.toList := by
  have hlist : css.toList = front.toList ++ '\x7b' :: rest.toList := by simp [hcss]
  rw [declaration, hlist, List.splitOn_append_cons_self, List.splitOn_eq_singleton hrest]
  simp

/-- The text of a rule ends with the words of its declaration and braces. -/
theorem exists_text_eq_words {r : Rule} {selectors : List Selector} {property : String}
    {values : List String} (hne : values ≠ [])
    (hbody : r.body = bodyOf selectors property (" ".intercalate values)) :
    ∃ front, ∃ braces ∈ [["\x7d"], ["\x7d", "\x7d"]], r.text
      = front ++ "\x7b" ++ " ".intercalate ("" :: (property ++ ":") :: (values ++ braces)) := by
  have hwords : ∀ braces, braces ≠ [] →
      " ".intercalate ("" :: (property ++ ":") :: (values ++ braces))
      = " " ++ property ++ ": " ++ " ".intercalate values ++ " " ++ " ".intercalate braces := by
    intro braces hbraces
    have happend : values ++ braces ≠ [] := by simp [hne]
    rw [String.intercalate_cons_cons, String.intercalate_cons_of_ne_nil happend,
      String.intercalate_append_of_ne_nil hne hbraces]
    simp [← String.toList_inj]
  rw [text]
  split
  · next query hquery =>
    refine ⟨"@media " ++ query ++ " \x7b " ++ ", ".intercalate (selectors.map Selector.text) ++ " ",
      ["\x7d", "\x7d"], by simp, ?_⟩
    rw [hwords _ (by simp), hbody, bodyOf]
    simp [← String.toList_inj]
  · refine ⟨", ".intercalate (selectors.map Selector.text) ++ " ", ["\x7d"], by simp, ?_⟩
    rw [hwords _ (by simp), hbody, bodyOf]
    simp [← String.toList_inj]

/-- The lengths in the text of a rule are the values of its declaration that are not colors. -/
theorem lengths_text {r : Rule} {selectors : List Selector} {property : String}
    (hproperty : IsValue property) {values : List String} (hvalues : ∀ v ∈ values, IsValue v)
    (hne : values ≠ []) (hbody : r.body = bodyOf selectors property (" ".intercalate values)) :
    lengths r.text = (values.map String.toList).filter fun word => '#' ∉ word := by
  obtain ⟨front, braces, hbraces, htext⟩ := exists_text_eq_words hne hbody
  have hclose : ∀ word ∈ braces, word = "\x7d" := by
    simp only [List.mem_cons, List.not_mem_nil, or_false] at hbraces
    rcases hbraces with rfl | rfl <;> simp
  have hword : ∀ c, c ≠ ':' → c ≠ '\x7d' → c ∉ property.toList → (∀ v ∈ values, c ∉ v.toList) →
      ∀ word ∈ "" :: (property ++ ":") :: (values ++ braces), c ∉ word.toList := by
    intro c hcolon hbrace hproperty hvalues word hmem
    simp only [List.mem_cons, List.mem_append] at hmem
    rcases hmem with rfl | rfl | hmem | hmem
    · simp
    · simpa [hcolon] using hproperty
    · exact hvalues word hmem
    · simpa [hclose word hmem] using hbrace
  have hopening := hword '\x7b' (by decide) (by decide) hproperty.opening
    fun v hv => (hvalues v hv).opening
  have hspace := hword ' ' (by decide) (by decide) hproperty.space
    fun v hv => (hvalues v hv).space
  have hdeclaration := declaration_eq htext fun hbrace => by
    rcases Text.mem_intercalate hbrace with hbrace | ⟨word, hmem, hbrace⟩
    · exact absurd hbrace (by decide)
    · exact hopening word hmem hbrace
  -- The words are the property, the values and the braces, after nothing before the first space.
  have hsplit : (declaration r.text).splitOn ' '
      = ("" :: (property ++ ":") :: (values ++ braces)).map String.toList := by
    rw [hdeclaration, String.toList_intercalate]
    refine List.splitOn_intercalate ' ' ?_ (by simp)
    intro _ hmap
    obtain ⟨word, hmem, rfl⟩ := List.mem_map.1 hmap
    exact hspace word hmem
  have hnone : (braces.map String.toList).filter (fun word => '#' ∉ word ∧ '\x7d' ∉ word) = [] := by
    simp only [List.filter_eq_nil_iff, List.mem_map, forall_exists_index, and_imp,
      forall_apply_eq_imp_iff₂]
    intro word hmem
    simp [hclose word hmem]
  rw [lengths, hsplit, List.map_cons, List.map_cons, List.drop_succ_cons, List.drop_succ_cons,
    List.drop_zero, List.map_append, List.filter_append, hnone, List.append_nil]
  refine List.filter_congr fun word hmem => ?_
  obtain ⟨value, hvalue, rfl⟩ := List.mem_map.1 hmem
  simp [(hvalues value hvalue).closing]

theorem isValue_css (p : ScaleProperty) : IsValue p.css := by
  cases p <;> exact ⟨by decide, by decide, by decide⟩

theorem lengths_of_isAmount {r : Rule} {selectors : List Selector} {p : ScaleProperty}
    {css : String} (hcss : IsAmount css) (hbody : r.body = bodyOf selectors p.css css) :
    lengths r.text = [css.toList] := by
  have hvalues : ∀ v ∈ [css], IsValue v := by simpa using hcss.1
  rw [lengths_text (isValue_css p) hvalues (List.cons_ne_nil css []) (by simpa using hbody)]
  simp [hcss.2]

/-- The offsets and the blur that are written in a key, if it is that of a shadow. -/
def shadowOffsets (key : String) : List Float :=
  match (shadowParts? key).bind fun (_, value) => shadowValue? value with
  | some (x, y, blur, _) => [x, y, blur]
  | none => []

/-- Whether a key is of a family whose values are lengths. -/
def IsLengthKey (key : String) : Prop :=
  key.startsWith "shadow" = true ∨ ∃ p : ScaleProperty, key.startsWith p.name = true

section Families

variable {o : RuleOptions} {key className : String} {r : Rule}

theorem shadowOffsets_eq_nil {p : ScaleProperty} (h : key.startsWith p.name = true) :
    shadowOffsets key = [] := by
  cases hparts : shadowParts? key with
  | none => simp [shadowOffsets, hparts]
  | some parts =>
    have hnone : ¬Compatible p.name "shadow" := by cases p <;> decide
    exact absurd (compatible_of_startsWith h (startsWith_of_shadowParts? hparts)) hnone

theorem lengths_ofShadow {force : Bool} (h : ofShadow force key className = .ok r) :
    (shadowOffsets key).length = 3
      ∧ lengths r.text = (shadowOffsets key).map fun x => (pixels x).toList := by
  simp only [ofShadow, bind_eq_ok, pure_eq_ok, given_eq_ok, Prod.exists] at h
  obtain ⟨state, value, hparts, states, -, x, y, blur, text, hvalue, color, hcolor, selectors, -,
    rfl⟩ := h
  obtain ⟨_, -, hhex⟩ := colorOfJson_eq_ok.1 hcolor
  have hhex := Color.isHex_of_hexOfHsla hhex
  have hoffsets : shadowOffsets key = [x, y, blur] := by
    simp [shadowOffsets, hparts, hvalue]
  have hpixels := fun x => isAmount_pixels x
  have hsign : '#' ∈ color.toList := by
    obtain ⟨digits, hdigits, -⟩ := hhex
    simp [hdigits]
  have hvalues : ∀ v ∈ [pixels x, pixels y, pixels blur, color], IsValue v := by
    have hcolor : IsValue color :=
      ⟨hhex.notMem (by decide), hhex.notMem (by decide), hhex.notMem (by decide)⟩
    simpa [hcolor] using ⟨(hpixels x).1, (hpixels y).1, (hpixels blur).1⟩
  have hproperty : IsValue "box-shadow" := ⟨by decide, by decide, by decide⟩
  refine ⟨by rw [hoffsets]; rfl, ?_⟩
  rw [hoffsets, lengths_text hproperty hvalues (List.cons_ne_nil _ _) rfl]
  simp [hsign, (hpixels _).2]

theorem isLength_ofScale {queries : MediaQueries} (h : ofScale queries key className = .ok r) :
    ∃ css : String, IsLength css.toList ∧ lengths r.text = [css.toList] := by
  simp only [ofScale, bind_eq_ok, pure_eq_ok, mapError_eq_ok, given_eq_ok,
    Option.filter_eq_some_iff] at h
  obtain ⟨_, -, k, -, p, -, _, -, _, -, _, -, x, ⟨-, hfinite⟩, css, hcss, media, -, rfl⟩ := h
  exact ⟨css, isLength_scaleLength hfinite hcss,
    lengths_of_isAmount (isAmount_scaleLength hcss) rfl⟩

theorem isLength_ofRadius (h : ofRadius o key className = .ok r) :
    ∃ css : String, IsLength css.toList ∧ lengths r.text = [css.toList] := by
  obtain ⟨k, x, states, selectors, -, -, hx, -, -, -, hbody⟩ := ofRadius_ok h
  have hfinite : x.isFinite = true := by
    simp only [radius?] at hx
    exact (Option.filter_eq_some_iff.1 hx).2
  exact ⟨pixels x, Length.isLength_px_iff.2 hfinite, lengths_of_isAmount (isAmount_pixels x) hbody⟩

/-- The rule of a scale, a border radius or a shadow sets lengths, and these are decimal numbers
with their units exactly if no offset or blur of a shadow is too large to be finite. -/
theorem isLength_iff (hkey : IsLengthKey key) (h : ofKey o key className = .ok r) :
    lengths r.text ≠ []
      ∧ ((∀ l ∈ lengths r.text, IsLength l) ↔ ∀ x ∈ shadowOffsets key, x.isFinite = true) := by
  rcases hkey with hstart | ⟨p, hstart⟩
  · rw [ofKey_shadow hstart] at h
    obtain ⟨hcount, hlengths⟩ := lengths_ofShadow h
    have hne : shadowOffsets key ≠ [] := List.ne_nil_of_length_eq_add_one hcount
    refine ⟨by simpa [hlengths] using hne, ?_⟩
    simp only [hlengths, List.forall_mem_map]
    exact forall₂_congr fun x _ => Length.isLength_px_iff
  · have hlength : ∃ css : String, IsLength css.toList ∧ lengths r.text = [css.toList] := by
      by_cases hp : p = .borderRadius
      · subst hp
        rw [ofKey_radius hstart] at h
        exact isLength_ofRadius h
      · rw [ofKey_scale hp hstart] at h
        exact isLength_ofScale h
    obtain ⟨css, hcss, hlengths⟩ := hlength
    rw [shadowOffsets_eq_nil hstart, hlengths]
    simpa using hcss

end Families

/-- The rule of the docs for a shadow under hovering. -/
theorem isLength_hoverShadow : ∃ r,
    ofKey { force := false } "shadow--hover__[2,4,8,[0,0,0,0.3]]" "abc" = .ok r
    ∧ r.text = ".abc.-e:hover \x7b box-shadow: 2px 4px 8px #0000004d \x7d"
    ∧ lengths r.text ≠ [] ∧ ∀ l ∈ lengths r.text, IsLength l := by
  have hr : (ofKey { force := false } "shadow--hover__[2,4,8,[0,0,0,0.3]]" "abc").toOption.map
      Rule.text = some ".abc.-e:hover \x7b box-shadow: 2px 4px 8px #0000004d \x7d" := by
    decide +kernel
  obtain ⟨r, hr, htext⟩ := exists_of_toOption_map hr
  have hfinite : (shadowOffsets "shadow--hover__[2,4,8,[0,0,0,0.3]]").all Float.isFinite
      = true := by
    decide +kernel
  obtain ⟨hne, hlengths⟩ := isLength_iff (.inl (by decide +kernel)) hr
  exact ⟨r, hr, htext, hne, hlengths.2 (List.all_eq_true.1 hfinite)⟩

/-- A shadow whose first offset is one with 309 zeros after it. -/
def farShadow : String := "shadow__[1" ++ Decimal.zeros 309 ++ ",0,0,[0,0,0,1]]"

theorem shadowParts?_farShadow : shadowParts? farShadow
    = some ("", "1".toList ++ List.replicate 309 '0' ++ ",0,0,[0,0,0,1]".toList) := by
  have hlist : farShadow.toList
      = "shadow__[1".toList ++ List.replicate 309 '0' ++ ",0,0,[0,0,0,1]]".toList := by
    simp only [farShadow, Decimal.zeros, String.toList_append, String.toList_ofList]
  rw [shadowParts?, hlist]
  decide +kernel

/-- A shadow can be so far that its length is no number. -/
theorem not_isLength_farShadow : IsLengthKey farShadow
    ∧ ∃ r, ofKey { force := false } farShadow "a" = .ok r
      ∧ r.text = ".a.-e \x7b box-shadow: infpx 0 0 #000000 \x7d"
      ∧ ¬∀ l ∈ lengths r.text, IsLength l := by
  have hstart : farShadow.startsWith "shadow" = true := by decide +kernel
  have hr : (ofKey { force := false } farShadow "a").toOption.map Rule.text
      = some ".a.-e \x7b box-shadow: infpx 0 0 #000000 \x7d" := by
    rw [ofKey_shadow hstart, ofShadow, shadowParts?_farShadow]
    decide +kernel
  obtain ⟨r, hr, htext⟩ := exists_of_toOption_map hr
  refine ⟨.inl hstart, r, hr, htext, fun h => ?_⟩
  have hlengths : lengths ".a.-e \x7b box-shadow: infpx 0 0 #000000 \x7d"
      = ["infpx".toList, ['0'], ['0']] := by
    decide +kernel
  rw [htext, hlengths] at h
  exact not_isLength_of_noDigit rfl (h "infpx".toList List.mem_cons_self)

end Rule
end AtomicCss

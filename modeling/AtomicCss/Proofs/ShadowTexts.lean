import AtomicCss.Proofs.ColorRules
import AtomicCss.Proofs.JsonCharacters
import AtomicCss.Proofs.KeyReading
import AtomicCss.Proofs.Order
import AtomicCss.Proofs.RereadColors
import AtomicCss.Proofs.ShadowKeys

/-!
# Shadows read off their keys

The offsets and the blur of a shadow are read off its key up to the comma after each, but only a
minus, digits and points are read. A finite number is written with these alone unless it has an
exponent, and then it is not read.
-/
namespace AtomicCss

namespace Number

variable {n : Number}

/-- A number is finite, and within the range of the floats. -/
def IsFinite (n : Number) : Prop := ∃ x, n.toFloat = .ok x ∧ x.isFinite = true

theorem IsFinite.normalize (h : n.IsFinite) : n.normalize.IsFinite := by
  cases n with
  | int n => exact h
  | float x =>
    obtain ⟨y, hy, hfinite⟩ := h
    obtain rfl : x = y := Except.ok.inj hy
    rw [Number.normalize]
    cases hint : x.integer? with
    | none => exact ⟨x, rfl, hfinite⟩
    | some n =>
      obtain ⟨y, hy, hagrees⟩ := Float.toFloat_of_integer? hint
      exact ⟨y, hy, isFinite_of_agrees hagrees hfinite⟩

/-- The text of a finite number is a sign, digits and points, and possibly an exponent. -/
theorem IsFinite.exists_text (h : n.IsFinite) : ∃ (negative : Bool) (front back : List Char),
    (Json.numberText n).toList = (if negative then ['-'] else []) ++ (front ++ back)
      ∧ front ≠ [] ∧ (∀ c ∈ front, c.isDigit = true ∨ c = '.')
      ∧ ∀ c ∈ back.head?, c = 'e' := by
  cases n with
  | int n =>
    refine ⟨decide (n < 0), Nat.toDigits 10 n.natAbs, [], ?_,
      List.length_pos_iff.1 Nat.length_toDigits_pos,
      fun c hc => .inl (Decimal.isDigit_of_mem_toDigits hc), by simp⟩
    rw [Json.numberText, toList_intText]
    simp
  | float x =>
    obtain ⟨y, hy, hfinite⟩ := h
    obtain rfl : x = y := Except.ok.inj hy
    obtain ⟨m, q, hx⟩ := Float.exists_of_isFinite hfinite
    obtain ⟨w, htext, hw, -⟩ := Decimal.exists_text Json.floatNotation hx
    refine ⟨x.signBit, w.whole ++ (if w.fraction.isEmpty then [] else '.' :: w.fraction),
      Decimal.Written.exponentChars w.exponent, htext, ?_, ?_, Numeral.head?_exponentChars _⟩
    · rcases hw.front with hwhole | ⟨c, cs, hwhole, -⟩ <;> simp [hwhole]
    · intro c hc
      rcases List.mem_append.1 hc with hc | hc
      · exact .inl (hw.whole c hc)
      · split at hc
        · cases hc
        · rcases List.mem_cons.1 hc with rfl | hc
          · exact .inr rfl
          · exact .inl (hw.fraction c hc)

theorem IsFinite.numberText_eq (h : n.IsFinite) : Json.numberText n = n.text := by
  cases n with
  | int n => rfl
  | float x =>
    obtain ⟨y, hy, hfinite⟩ := h
    obtain rfl : x = y := Except.ok.inj hy
    obtain ⟨m, q, hx⟩ := Float.exists_of_isFinite hfinite
    rw [Json.numberText, Number.text, Decimal.Notation.text, Decimal.Notation.text, hx]
    rfl

def keyChars (n : Number) : List Char := (Json.numberText n.normalize).toList

/-- A finite number is read as it is written, but for the sign of zero. -/
theorem IsFinite.float?_keyChars (h : n.IsFinite) {x : Float} (hx : n.toFloat = .ok x) :
    ∃ y, Numeral.float? n.keyChars = some y ∧ x.Agrees y := by
  rw [keyChars, h.normalize.numberText_eq]
  exact float?_text_normalize hx

end Number

namespace Rule

theorem offset?_append {front : List Char} (hne : front ≠ [])
    (hfront : ∀ c ∈ front, c.isDigit = true ∨ c = '.') (tail : List Char)
    (htail : ∀ c ∈ tail.head?, Digit.isDigit c = false ∧ c ≠ '.') (negative : Bool) :
    offset? ((if negative then ['-'] else []) ++ (front ++ tail))
      = (Text.after? [','] tail).map fun rest =>
        ((if negative then ['-'] else []) ++ front, rest) := by
  have hpart : ∀ c ∈ front, (Digit.isDigit c || c = '.') = true := by
    intro c hc
    rcases hfront c hc with hdigit | rfl
    · simp [Digit.isDigit, Digit.value?_of_isDigit hdigit]
    · rfl
  have hsplit := Text.run_append hpart fun c hc => by simpa using htail c hc
  have hempty : front.isEmpty = false := by simpa using hne
  obtain ⟨c, cs, rfl⟩ := List.exists_cons_of_ne_nil hne
  have hminus : c ≠ '-' := by
    rintro rfl
    exact absurd (hpart '-' List.mem_cons_self) (by decide)
  cases negative with
  | true =>
    simp only [offset?, if_true, List.singleton_append, hsplit, hempty]
    cases Text.after? [','] tail <;> rfl
  | false =>
    rw [if_neg Bool.false_ne_true, List.nil_append, offset?]
    · simp only [hsplit, hempty]
      cases Text.after? [','] tail <;> rfl
    · exact fun _ heq => hminus (List.cons.inj heq).1

/-- The text of a finite number is read up to the comma after it, unless there is an exponent. -/
theorem offset?_keyChars {n : Number} (hn : n.IsFinite) {rest : List Char}
    {found : List Char × List Char} : offset? (n.keyChars ++ ',' :: rest) = some found
      ↔ 'e' ∉ n.keyChars ∧ (n.keyChars, rest) = found := by
  obtain ⟨negative, front, back, htext, hne, hfront, hback⟩ := hn.normalize.exists_text
  change n.keyChars = _ at htext
  have hexponent : 'e' ∉ (if negative then ['-'] else []) ++ front := by
    intro h
    rcases List.mem_append.1 h with h | h
    · cases negative <;> simp at h
    · exact absurd (hfront 'e' h) (by decide)
  have hread := offset?_append hne hfront (back ++ ',' :: rest) ?_ negative
  · rw [htext, List.append_assoc, List.append_assoc, hread]
    cases back with
    | nil =>
      rw [List.append_nil]
      simp [hexponent, Text.after?]
    | cons c back =>
      obtain rfl := hback c rfl
      simp [Text.after?]
  · cases back with
    | nil => simp [Digit.isDigit, Digit.value?]
    | cons c back =>
      obtain rfl := hback c rfl
      simp [Digit.isDigit, Digit.value?]

end Rule

namespace Shadow.InState

variable (v : InState)

def numbers : List Number := [v.x, v.y, v.blur]

def colorChars : List Char := (Json.write .key 1 v.color.normalize).toList

def body : List Char :=
  v.x.keyChars ++ ',' :: (v.y.keyChars ++ ',' :: (v.blur.keyChars ++ ',' :: v.colorChars))

theorem toList_text_values :
    (StyleKey.jsonText (.list v.values)).toList = '[' :: (v.body ++ [']']) := by
  simp [StyleKey.jsonText, values, Value.normalize, Value.normalizeItems, Json.text, Json.write,
    Json.writeItems, Json.Layout.break, Json.Layout.key, body, colorChars, Number.keyChars]

theorem break_notMem_body : '\n' ∉ v.body := by
  have hline : '\n' ∉ (StyleKey.jsonText (.list v.values)).toList :=
    Json.notMem_write (by decide) (fun _ => List.not_mem_nil) 0 _
  rw [toList_text_values, List.mem_cons, List.mem_append, not_or, not_or] at hline
  exact hline.2.1

theorem shadowHead?_key (state : InteractionState) : Rule.shadowHead? (v.key state).toList
    = some (if state = .rest then [] else state.name.toList, v.body ++ [']']) := by
  by_cases hrest : state = .rest
  · subst hrest
    have hkey : (v.key .rest).toList = "shadow".toList ++ ("__[".toList ++ (v.body ++ [']'])) := by
      simp [key, toList_text_values]
    rw [hkey, Rule.shadowHead?, Text.after?_eq_some.2 rfl]
    simp only [Option.bind_eq_bind, Option.bind_some, Text.after?_eq_some.2 rfl, if_true]
  · have hkey : (v.key state).toList = "shadow".toList ++ ("--".toList ++ ((state.name.toList
        ++ ['_', '_']) ++ '[' :: (v.body ++ [']']))) := by
      simp [key, hrest, toList_text_values]
    have hletter : ∀ c ∈ state.name.toList ++ ['_', '_'],
        c.toNat < 128 ∧ (c.isAlphanum = true ∨ c = '_') := by
      cases state <;> simp [InteractionState.name]
    have hword : ∀ c ∈ state.name.toList ++ ['_', '_'], (Word.isWord c || c = ':') = true := by
      intro c hc
      obtain ⟨hlow, hc⟩ := hletter c hc
      simp [Word.isWord, hlow, hc]
    have hname : state.name.toList.isEmpty = false := by cases state <;> rfl
    have hmiss : ∀ cs, Text.after? "__[".toList ("--".toList ++ cs) = none := fun _ => rfl
    -- The underscores belong to the run of word characters, and so they are read with the state.
    have hrun := @Text.run_append _ _ ('[' :: (v.body ++ [']'])) hword (by simp [Word.isWord])
    have hfirst : Rule.dropLast? '_' (state.name.toList ++ ['_', '_'])
        = some (state.name.toList ++ ['_']) := by
      rw [Rule.dropLast?_eq_some, List.append_assoc, List.singleton_append]
    rw [hkey, Rule.shadowHead?, Text.after?_eq_some.2 rfl]
    simp only [Option.bind_eq_bind, Option.bind_some, hmiss, Text.after?_eq_some.2 rfl, hrun,
      hfirst, Rule.dropLast?_eq_some.2 rfl, hname, if_neg hrest]
    rfl

/-- The state and the value are read off the key as they were written. -/
theorem shadowParts?_key (state : InteractionState) : Rule.shadowParts? (v.key state)
    = some (if state = .rest then "" else state.name, v.body) := by
  have hlast : Rule.dropLast? ']' (Rule.dropFinalBreak (v.body ++ [']'])) = some v.body := by
    rw [Rule.dropFinalBreak_concat (by decide), Rule.dropLast?_eq_some]
  have hbreak : v.body.contains '\n' = false := by simpa using v.break_notMem_body
  rw [Rule.shadowParts?, v.shadowHead?_key state]
  simp only [Option.bind_eq_bind, Option.bind_some, hlast, hbreak, Bool.false_eq_true, if_false]
  split <;> simp

/-- The numbers and the color are read off the value, unless a number has an exponent. -/
theorem shadowValue?_body (h : ∀ n ∈ v.numbers, n.IsFinite) {x y blur : Float}
    {color : List Char} : Rule.shadowValue? v.body = some (x, y, blur, color)
      ↔ (∀ n ∈ v.numbers, 'e' ∉ n.keyChars) ∧ Numeral.float? v.x.keyChars = some x
        ∧ Numeral.float? v.y.keyChars = some y ∧ Numeral.float? v.blur.keyChars = some blur
        ∧ v.colorChars = color := by
  simp only [numbers, List.forall_mem_cons, List.not_mem_nil, false_imp_iff, implies_true,
    and_true] at h
  obtain ⟨hx, hy, hblur⟩ := h
  simp only [Rule.shadowValue?, body, numbers, Option.bind_eq_bind, Option.bind_eq_some_iff,
    Rule.offset?_keyChars hx, List.forall_mem_cons, and_assoc]
  constructor
  · rintro ⟨_, hx', rfl, _, h, hread⟩
    obtain ⟨hy', rfl⟩ := (Rule.offset?_keyChars hy).1 h
    obtain ⟨_, h, hread⟩ := hread
    obtain ⟨hblur', rfl⟩ := (Rule.offset?_keyChars hblur).1 h
    obtain ⟨x', hx'', y', hy'', blur', hblur'', heq⟩ := hread
    cases heq
    exact ⟨hx', hy', hblur', by simp, hx'', hy'', hblur'', rfl⟩
  · rintro ⟨hx', hy', hblur', -, hx'', hy'', hblur'', rfl⟩
    exact ⟨_, hx', rfl, _, (Rule.offset?_keyChars hy).2 ⟨hy', rfl⟩, _,
      (Rule.offset?_keyChars hblur).2 ⟨hblur', rfl⟩, _, hx'', _, hy'', _, hblur'', rfl⟩

end Shadow.InState
end AtomicCss

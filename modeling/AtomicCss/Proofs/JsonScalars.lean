import AtomicCss.Json.Reader
import AtomicCss.Json.Writer
import AtomicCss.Proofs.FloatTexts

/-!
# JSON numbers and strings read back as they were written

A float comes back as it was, and an integer does unless it has more digits than integers may have.
The characters of a string come back one by one, but for two that keep the halves of one surrogate
pair: these are read as the character of the pair.
-/
namespace AtomicCss.Json

open Decimal

/-- What follows a number: nothing that a number could go on with. -/
def EndsNumber (rest : List Char) : Prop :=
  ∀ c ∈ rest.head?, c.isDigit = false ∧ c ≠ '.' ∧ c ≠ 'e' ∧ c ≠ 'E'

theorem span_append {ds rest : List Char} (h : ∀ c ∈ ds, c.isDigit = true)
    (hrest : ∀ c ∈ rest.head?, c.isDigit = false) :
    (ds ++ rest).span Char.isDigit = (ds, rest) := by
  rw [List.span_eq_takeWhile_dropWhile]
  induction ds with
  | nil =>
    cases rest with
    | nil => rfl
    | cons c rest => simp [hrest c rfl]
  | cons c ds ih =>
    have hc : c.isDigit = true := h c List.mem_cons_self
    simpa [hc] using ih fun d hd => h d (List.mem_cons_of_mem c hd)

theorem fractionDigits_append {ds rest : List Char} (h : ∀ c ∈ ds, c.isDigit = true)
    (hrest : ∀ c ∈ rest.head?, c.isDigit = false ∧ c ≠ '.') :
    fractionDigits ((if ds.isEmpty then [] else '.' :: ds) ++ rest) = (ds, rest) := by
  cases ds with
  | nil =>
    rw [List.isEmpty_nil, if_pos rfl, List.nil_append, fractionDigits]
    intro cs hcs
    exact (hrest '.' (by simp [hcs])).2 rfl
  | cons d ds =>
    have hspan := span_append h fun c hc => (hrest c hc).1
    rw [List.isEmpty_cons, if_neg Bool.false_ne_true, List.cons_append, fractionDigits, hspan]

theorem exponent?_append (e : Option Int) {rest : List Char} (hrest : EndsNumber rest) :
    exponent? (Written.exponentChars e ++ rest) = e.map (·, rest) := by
  cases e with
  | none =>
    rw [Written.exponentChars, List.nil_append]
    cases rest with
    | nil => rfl
    | cons c rest => simp [exponent?, (hrest c rfl).2.2]
  | some e =>
    obtain ⟨ds, htext, hne, hdigit, hread⟩ := exists_exponentText e
    have hsign : Numeral.sign ((exponentText e).toList ++ rest) = (decide (e < 0), ds ++ rest) := by
      rw [htext]
      by_cases hneg : e < 0 <;> simp [Numeral.sign, hneg]
    have hspan := span_append hdigit fun c hc => (hrest c hc).1
    have hvalue : Numeral.ofDigits (digitValues ds) = e.natAbs :=
      (Numeral.ofDigits_map ds).trans hread
    cases ds with
    | nil => exact absurd rfl hne
    | cons d ds =>
      simp only [Written.exponentChars, List.cons_append, exponent?, true_or, if_true, hsign]
      rw [← List.cons_append, hspan]
      simp only [hvalue, decide_eq_true_eq, Option.map_some, Option.some.injEq, Prod.mk.injEq,
        and_true]
      omega

def fromPoint (negative : Bool) (whole rest : List Char) : Except ReadError (Number × List Char) :=
  let (fraction, rest) := fractionDigits rest
  match fraction, exponent? rest with
  | [], none =>
    if Numeral.digitLimit < whole.length then .error .tooManyDigits
    else
      let n : Int := Numeral.ofDigits (digitValues whole)
      .ok (.int (if negative then -n else n), rest)
  | fraction, exponent =>
    let (e, rest) := exponent.getD (0, rest)
    let n := Numeral.ofDigits (digitValues (whole ++ fraction))
    .ok (.float (Numeral.nearest negative n (e - fraction.length)), rest)

/-- The digits before a point are read whole, as only a lone zero starts with a zero. -/
theorem number_append {whole rest : List Char} (h : ∀ c ∈ whole, c.isDigit = true)
    (hfront : whole = ['0'] ∨ ∃ c cs, whole = c :: cs ∧ c ≠ '0')
    (hrest : ∀ c ∈ rest.head?, c.isDigit = false) (negative : Bool) :
    number ((if negative then ['-'] else []) ++ (whole ++ rest))
      = fromPoint negative whole rest := by
  rcases hfront with rfl | ⟨c, cs, rfl, hc⟩
  · cases negative with
    | true => exact number.eq_1 rest
    | false => exact number.eq_3 rest
  · have hzero : ∀ tail, c :: cs ++ rest = '0' :: tail → False :=
      fun _ heq => hc (List.cons.inj heq).1
    have hminus : ∀ tail, c :: cs ++ rest = '-' :: tail → False := by
      intro tail heq
      have hdigit := h c List.mem_cons_self
      rw [(List.cons.inj heq).1] at hdigit
      cases hdigit
    cases negative with
    | true =>
      have hnumber := number.eq_2 _ hzero
      rw [span_append h hrest] at hnumber
      exact hnumber
    | false =>
      have hnumber := number.eq_4 _ hminus hzero
      rw [span_append h hrest] at hnumber
      exact hnumber

variable {w : Written} {rest : List Char}

theorem head?_exponentChars (e : Option Int) (hrest : EndsNumber rest) :
    ∀ c ∈ (Written.exponentChars e ++ rest).head?, c.isDigit = false ∧ c ≠ '.' := by
  intro c hc
  cases e with
  | none => exact ⟨(hrest c hc).1, (hrest c hc).2.1⟩
  | some e =>
    obtain rfl : 'e' = c := Option.some.inj hc
    decide

theorem number_chars (hw : w.IsFloat) (negative : Bool) (hrest : EndsNumber rest) :
    number ((if negative then ['-'] else []) ++ (w.chars ++ rest))
      = .ok (.float (Numeral.nearest negative w.scientific.coefficient w.scientific.exponent),
          rest) := by
  have hpoint := head?_exponentChars w.exponent hrest
  have htail : ∀ c ∈ ((if w.fraction.isEmpty then [] else '.' :: w.fraction)
      ++ (Written.exponentChars w.exponent ++ rest)).head?, c.isDigit = false := by
    cases w.fraction with
    | nil => exact fun c hc => (hpoint c hc).1
    | cons d ds =>
      intro c hc
      obtain rfl : '.' = c := Option.some.inj hc
      rfl
  have hread : Numeral.ofDigits (digitValues (w.whole ++ w.fraction)) = w.scientific.coefficient :=
    Numeral.ofDigits_map _
  rw [Written.chars, List.append_assoc, List.append_assoc,
    number_append hw.whole hw.front htail, fromPoint, fractionDigits_append hw.fraction hpoint]
  dsimp only
  rw [exponent?_append _ hrest]
  split
  · next hfraction hexponent =>
    rcases hw.marked with hmarked | hmarked
    · exact absurd hfraction hmarked
    · cases hw' : w.exponent with
      | none => simp [hw'] at hmarked
      | some e => simp [hw'] at hexponent
  · rw [hread]
    cases hexponent : w.exponent <;>
      simp [Written.scientific, Written.exponentChars, hexponent]

theorem number_intText (n : Int) (hrest : EndsNumber rest) :
    number ((Number.intText n).toList ++ rest)
      = if Numeral.IsShort n then .ok (.int n, rest) else .error .tooManyDigits := by
  have hfront : Nat.toDigits 10 n.natAbs = ['0']
      ∨ ∃ c cs, Nat.toDigits 10 n.natAbs = c :: cs ∧ c ≠ '0' := by
    rcases Nat.eq_zero_or_pos n.natAbs with hn | hn
    · exact .inl (by rw [hn]; rfl)
    · exact .inr (exists_toDigits hn)
  have hread : Numeral.ofDigits (digitValues (Nat.toDigits 10 n.natAbs)) = n.natAbs :=
    Numeral.ofDigits_toDigits n.natAbs
  have hdigits := number_append (fun c hc => isDigit_of_mem_toDigits hc) hfront
    (fun c hc => (hrest c hc).1) (decide (n < 0))
  simp only [decide_eq_true_eq] at hdigits
  have hnone : ∀ c ∈ ([] : List Char), c.isDigit = true := by simp
  have hfraction : fractionDigits rest = ([], rest) :=
    fractionDigits_append hnone fun c hc => ⟨(hrest c hc).1, (hrest c hc).2.1⟩
  have hexponent : exponent? rest = none := exponent?_append none hrest
  rw [Number.toList_intText, List.append_assoc, hdigits, fromPoint, hfraction]
  dsimp only
  rw [hexponent]
  dsimp only
  rw [hread]
  split
  · next hlong =>
    have hlong : ¬Numeral.IsShort n := Nat.not_le.2 hlong
    rw [if_neg hlong]
  · next hshort =>
    have hshort : Numeral.IsShort n := Nat.not_lt.1 hshort
    rw [if_pos hshort]
    congr 3
    simp only [decide_eq_true_eq]
    omega

/-- The character of a surrogate pair whose halves two characters keep. -/
def paired? (a b : Char) : Option Char :=
  match Surrogate.half? a, Surrogate.half? b with
  | some n, some m =>
    if n < 0xDC00 ∧ 0xDC00 ≤ m then
      some (Char.ofNat (0x10000 + (n - 0xD800) * 0x400 + (m - 0xDC00)))
    else none
  | _, _ => none

def joined : List Char → List Char
  | a :: b :: cs =>
    match paired? a b with
    | some c => c :: joined cs
    | none => a :: joined (b :: cs)
  | cs => cs

theorem hexValue?_hexDigit {n : Nat} (h : n < 16) :
    Digit.hexValue? (Quoted.hexDigit n) = some n := by
  have hall : ∀ k < 16, Digit.hexValue? (Quoted.hexDigit k) = some k := by decide
  exact hall n h

theorem unit?_hex {n : Nat} (h : n < 0x10000) (rest : List Char) :
    unit? (Quoted.hex 4 n ++ rest) = some (n, rest) := by
  have hdigit : ∀ k, Digit.hexValue? (Quoted.hexDigit (k % 16)) = some (k % 16) :=
    fun k => hexValue?_hexDigit (Nat.mod_lt k (by decide))
  simp only [Quoted.hex, List.nil_append, List.cons_append, unit?, Digit.hexNumber?,
    List.foldl_cons, List.foldl_nil, hdigit, Option.bind_eq_bind, Option.bind_some,
    Option.map_some, Option.some.injEq, Prod.mk.injEq, and_true]
  omega

theorem half?_eq_some {c : Char} {n : Nat} (h : Surrogate.half? c = some n) :
    c = Surrogate.kept n ∧ 0xD800 ≤ n ∧ n < 0xE000 := by
  simp only [Surrogate.half?, Option.ite_none_right_eq_some, Bool.and_eq_true, decide_eq_true_eq,
    Surrogate.isHalf, Option.some.injEq] at h
  obtain ⟨⟨hle, hhalf⟩, hn⟩ := h
  have hcode : c.toNat = 0x100000 + n := by omega
  exact ⟨by rw [Surrogate.kept, ← hcode, Char.ofNat_toNat], by omega, by omega⟩

theorem lowUnit?_unitEscape {n : Nat} (h : n < 0x10000) (rest : List Char) :
    lowUnit? (unitEscape n ++ rest) = if 0xDC00 ≤ n ∧ n < 0xE000 then some (n, rest) else none := by
  rw [unitEscape, List.cons_append, List.cons_append, lowUnit?, unit?_hex h]
  rfl

/-- The escape of a unit is read as the unit, or together with a second half that follows. -/
theorem escaped?_hex {n : Nat} (h : n < 0x10000) (rest : List Char) :
    escaped? ('u' :: (Quoted.hex 4 n ++ rest)) =
      if 0xD800 ≤ n ∧ n < 0xDC00 then
        match lowUnit? rest with
        | some (m, rest) => some (Char.ofNat (0x10000 + (n - 0xD800) * 0x400 + (m - 0xDC00)), rest)
        | none => some (Surrogate.kept n, rest)
      else some (Surrogate.charOf n, rest) := by
  cases hlow : lowUnit? rest <;> simp only [escaped?, unit?_hex h, hlow]

/-- The ways in which a character is written: with an escape of its own, as it is, or by its
units. -/
theorem stringChar_cases (c : Char) :
    (Surrogate.half? c = none ∧ ∃ e, stringChar true c = ['\\', e] ∧ e ≠ 'u'
        ∧ ∀ rest, escaped? (e :: rest) = some (c, rest))
      ∨ (Surrogate.half? c = none ∧ stringChar true c = [c] ∧ c ≠ '"' ∧ c ≠ '\\'
        ∧ ¬c.toNat < 0x20)
      ∨ stringChar true c = charEscape c := by
  rw [stringChar]
  split_ifs with hquote hescape h h h h h hunits
  iterate 7
    · subst_vars
      exact .inl ⟨rfl, _, rfl, by decide, fun _ => rfl⟩
  · exact .inr (.inr rfl)
  · have hlow : ¬c.toNat < 0x20 ∧ c.toNat < 0x7F := by simpa using hunits
    refine .inr (.inl ⟨?_, rfl, hquote, hescape, hlow.1⟩)
    rw [Surrogate.half?]
    simp
    omega

theorem ofNat_units {c : Char} (h : ¬c.toNat < 0x10000) :
    Char.ofNat (0x10000 + (0xD800 + (c.toNat - 0x10000) / 0x400 - 0xD800) * 0x400
      + (0xDC00 + (c.toNat - 0x10000) % 0x400 - 0xDC00)) = c := by
  have hcode : 0x10000 + (0xD800 + (c.toNat - 0x10000) / 0x400 - 0xD800) * 0x400
      + (0xDC00 + (c.toNat - 0x10000) % 0x400 - 0xDC00) = c.toNat := by omega
  rw [hcode, Char.ofNat_toNat]

theorem toNat_cases (c : Char) : c.toNat < 0xD800 ∨ 0xDFFF < c.toNat ∧ c.toNat < 0x110000 := c.valid

/-- The units of a character are read as the character, unless it keeps the first half of a pair
and a second half follows. -/
theorem exists_charEscape (c : Char) {tail : List Char}
    (htail : ∀ n, Surrogate.half? c = some n → n < 0xDC00 → lowUnit? tail = none) :
    ∃ cs, charEscape c ++ tail = '\\' :: cs ∧ escaped? cs = some (c, tail) := by
  have hvalid := toNat_cases c
  cases hhalf : Surrogate.half? c with
  | some n =>
    obtain ⟨hkept, hle, hlt⟩ := half?_eq_some hhalf
    have hunit : n < 0x10000 := by omega
    refine ⟨'u' :: (Quoted.hex 4 n ++ tail), ?_, ?_⟩
    · simp only [charEscape, hhalf, Option.getD_some, hunit, if_true, unitEscape, List.cons_append]
    · rw [escaped?_hex hunit]
      split
      · next hhigh => rw [htail n hhalf hhigh.2, hkept]
      · have hishalf : Surrogate.isHalf n = true := by simp [Surrogate.isHalf, hle, hlt]
        rw [Surrogate.charOf, if_pos hishalf, hkept]
  | none =>
    by_cases hsmall : c.toNat < 0x10000
    · refine ⟨'u' :: (Quoted.hex 4 c.toNat ++ tail), ?_, ?_⟩
      · simp only [charEscape, hhalf, Option.getD_none, hsmall, if_true, unitEscape,
          List.cons_append]
      · have hnothalf : ¬Surrogate.isHalf c.toNat = true := by
          simp [Surrogate.isHalf]
          omega
        rw [escaped?_hex hsmall, if_neg (by omega), Surrogate.charOf, if_neg hnothalf,
          Char.ofNat_toNat]
    · generalize hn : 0xD800 + (c.toNat - 0x10000) / 0x400 = n
      generalize hm : 0xDC00 + (c.toNat - 0x10000) % 0x400 = m
      refine ⟨'u' :: (Quoted.hex 4 n ++ (unitEscape m ++ tail)), ?_, ?_⟩
      · simp only [charEscape, hhalf, Option.getD_none, hsmall, if_false, hn, hm, unitEscape,
          List.cons_append, List.append_assoc]
      · have hchar := ofNat_units hsmall
        rw [hn, hm] at hchar
        rw [escaped?_hex (by omega), if_pos (by omega), lowUnit?_unitEscape (by omega),
          if_pos (by omega)]
        exact congrArg (fun d => some (d, tail)) hchar

/-- A character is read from what is written for it, unless it keeps the first half of a pair and a
second half follows. -/
theorem string?_stringChar (c : Char) {tail : List Char} (fuel : Nat)
    (htail : ∀ n, Surrogate.half? c = some n → n < 0xDC00 → lowUnit? tail = none) :
    string? (fuel + 1) (stringChar true c ++ tail)
      = (string? fuel tail).map fun (s, rest) => (c :: s, rest) := by
  have hescape : ∀ cs, escaped? cs = some (c, tail) → string? (fuel + 1) ('\\' :: cs)
      = (string? fuel tail).map fun (s, rest) => (c :: s, rest) := by
    intro cs hcs
    rw [string?, if_neg (by decide), if_pos rfl, hcs]
  rcases stringChar_cases c with ⟨-, e, he, -, hread⟩ | ⟨-, hchar, hquote, hslash, hlow⟩ | hunits
  · rw [he]
    exact hescape _ (hread tail)
  · rw [hchar, List.singleton_append, string?, if_neg hquote, if_neg hslash, if_neg hlow]
  · obtain ⟨cs, hcs, hread⟩ := exists_charEscape c htail
    rw [hunits, hcs]
    exact hescape cs hread

/-- A second half follows where the next character keeps one. -/
theorem lowUnit?_stringChar (c : Char) (tail : List Char) :
    lowUnit? (stringChar true c ++ tail)
      = ((Surrogate.half? c).filter (0xDC00 ≤ ·)).map (·, tail) := by
  have hvalid := toNat_cases c
  rcases stringChar_cases c with ⟨hhalf, e, he, hne, -⟩ | ⟨hhalf, hchar, -, hslash, -⟩ | hunits
  · rw [he, hhalf, List.cons_append, List.cons_append, lowUnit?]
    · rfl
    · rintro rest heq
      exact hne (List.cons.inj (List.cons.inj heq).2).1
  · rw [hchar, hhalf, List.singleton_append, lowUnit?]
    · rfl
    · rintro rest heq
      exact hslash (List.cons.inj heq).1
  · rw [hunits, charEscape]
    cases hhalf : Surrogate.half? c with
    | some n =>
      obtain ⟨-, hle, hlt⟩ := half?_eq_some hhalf
      rw [Option.getD_some, if_pos (by omega), lowUnit?_unitEscape (by omega)]
      by_cases hlow : 0xDC00 ≤ n
      · simp [hlow, hlt]
      · simp [hlow, Nat.not_le.1 hlow]
    | none =>
      rw [Option.getD_none]
      split
      · rw [lowUnit?_unitEscape (by omega), if_neg (by omega)]
        rfl
      · rw [List.append_assoc, lowUnit?_unitEscape (by omega), if_neg (by omega)]
        rfl

theorem paired?_eq_some {a b c : Char} (h : paired? a b = some c) :
    ∃ n m, Surrogate.half? a = some n ∧ Surrogate.half? b = some m ∧ n < 0xDC00 ∧ 0xDC00 ≤ m
      ∧ c = Char.ofNat (0x10000 + (n - 0xD800) * 0x400 + (m - 0xDC00)) := by
  rw [paired?] at h
  split at h
  · next n m hn hm =>
    obtain ⟨hrange, heq⟩ := Option.ite_none_right_eq_some.1 h
    exact ⟨n, m, hn, hm, hrange.1, hrange.2, (Option.some.inj heq).symm⟩
  · cases h

theorem string?_paired {a b c : Char} (h : paired? a b = some c) (tail : List Char) (fuel : Nat) :
    string? (fuel + 1) (stringChar true a ++ (stringChar true b ++ tail))
      = (string? fuel tail).map fun (s, rest) => (c :: s, rest) := by
  obtain ⟨n, m, hn, hm, hlow, hhigh, hc⟩ := paired?_eq_some h
  obtain ⟨-, hle, -⟩ := half?_eq_some hn
  have hsecond := lowUnit?_stringChar b tail
  rw [hm] at hsecond
  rcases stringChar_cases a with ⟨hnone, -⟩ | ⟨hnone, -⟩ | hunits
  · rw [hn] at hnone
    cases hnone
  · rw [hn] at hnone
    cases hnone
  · have hunit : n < 0x10000 := by omega
    rw [hunits, charEscape, hn, Option.getD_some, if_pos hunit, unitEscape, List.cons_append,
      List.cons_append, string?, if_neg (by decide), if_pos rfl, escaped?_hex hunit,
      if_pos ⟨hle, hlow⟩, hsecond, hc]
    simp only [hhigh, decide_true, Option.filter_some, if_true, Option.map_some]

/-- A string is read up to its closing quote, the halves of pairs joined. -/
theorem string?_written (s rest : List Char) {fuel : Nat} (hfuel : s.length < fuel) :
    string? fuel (s.flatMap (stringChar true) ++ '"' :: rest) = some (joined s, rest) := by
  induction s using joined.induct generalizing fuel with
  | case1 a b cs c hpair ih =>
    obtain ⟨fuel, rfl⟩ := Nat.exists_eq_succ_of_ne_zero (by omega : fuel ≠ 0)
    simp only [List.length_cons] at hfuel
    rw [List.flatMap_cons, List.flatMap_cons, List.append_assoc, List.append_assoc,
      string?_paired hpair, ih (by omega), joined, hpair]
    rfl
  | case2 a b cs hpair ih =>
    obtain ⟨fuel, rfl⟩ := Nat.exists_eq_succ_of_ne_zero (by omega : fuel ≠ 0)
    simp only [List.length_cons] at hfuel
    rw [List.flatMap_cons, List.append_assoc, string?_stringChar a fuel ?_,
      ih (by simpa using hfuel), joined, hpair]
    · rfl
    · intro n hn hlow
      rw [List.flatMap_cons, List.append_assoc, lowUnit?_stringChar]
      cases hm : Surrogate.half? b with
      | none => rfl
      | some m =>
        have hsmall : ¬0xDC00 ≤ m := by
          intro hle
          simp [paired?, hn, hm, hlow, hle] at hpair
        simpa using Nat.not_le.1 hsmall
  | case3 cs hcs =>
    match cs with
    | [] =>
      obtain ⟨fuel, rfl⟩ := Nat.exists_eq_succ_of_ne_zero (by omega : fuel ≠ 0)
      rfl
    | [a] =>
      obtain ⟨fuel, rfl⟩ := Nat.exists_eq_succ_of_ne_zero (by omega : fuel ≠ 0)
      rw [List.flatMap_singleton, string?_stringChar a fuel fun _ _ _ => rfl]
      cases fuel with
      | zero => simp at hfuel
      | succ fuel => rfl
    | a :: b :: cs => exact absurd rfl (hcs a b cs)

end AtomicCss.Json

import AtomicCss.Proofs.JsonScalars

/-!
# Texts by their 16-bit units

Inside a string with escapes a character beyond 16 bits is written as the two halves of its
surrogate pair, just as two characters are that keep these halves. So strings are the same exactly
if the 16-bit units of their texts are. Of texts without kept halves the units are the same only if
the texts are.
-/
namespace AtomicCss.Json

variable {c d : Char} {n : Nat}

/-- The 16-bit units of a character. The unit of a kept half is the half. -/
def charUnits (c : Char) : List Nat :=
  let n := (Surrogate.half? c).getD c.toNat
  if n < 0x10000 then [n]
  else [0xD800 + (n - 0x10000) / 0x400, 0xDC00 + (n - 0x10000) % 0x400]

def units (s : String) : List Nat := s.toList.flatMap charUnits

def SameUnits (s t : String) : Prop := units s = units t

theorem lt_of_mem_charUnits (h : n ∈ charUnits c) : n < 0x10000 := by
  have hcode : (Surrogate.half? c).getD c.toNat < 0x110000 := by
    cases hhalf : Surrogate.half? c with
    | none =>
      have hvalid := toNat_cases c
      rw [Option.getD_none]
      omega
    | some m =>
      obtain ⟨-, -, hm⟩ := half?_eq_some hhalf
      rw [Option.getD_some]
      omega
  rw [charUnits] at h
  split at h
  · next hsmall => exact (List.mem_singleton.1 h).trans_lt hsmall
  · rcases List.mem_pair.1 h with hn | hn
    · omega
    · omega

theorem lt_of_mem_units {s : String} (h : n ∈ units s) : n < 0x10000 := by
  obtain ⟨c, -, hn⟩ := List.mem_flatMap.1 h
  exact lt_of_mem_charUnits hn

def unitText (n : Nat) : List Char :=
  if n < 0x80 then stringChar true (Char.ofNat n) else unitEscape n

theorem half?_eq_none_of_lt (h : c.toNat < 0x100000) : Surrogate.half? c = none := by
  simp [Surrogate.half?, Nat.not_le.2 h]

theorem stringChar_of_le (h : 0x80 ≤ c.toNat) : stringChar true c = charEscape c := by
  have hne : ∀ d : Char, d.toNat < 0x80 → c ≠ d := by
    rintro d hd rfl
    omega
  rw [stringChar]
  simp (disch := decide) only [hne, if_false]
  exact if_pos (.inr ⟨trivial, by omega⟩)

theorem stringChar_eq (c : Char) : stringChar true c = (charUnits c).flatMap unitText := by
  by_cases h : c.toNat < 0x80
  · have hunits : charUnits c = [c.toNat] := by
      rw [charUnits, half?_eq_none_of_lt (by omega), Option.getD_none]
      exact if_pos (by omega)
    rw [hunits, List.flatMap_singleton, unitText, if_pos h, Char.ofNat_toNat]
  · have hcode : ¬(Surrogate.half? c).getD c.toNat < 0x80 := by
      cases hhalf : Surrogate.half? c with
      | none => exact h
      | some m =>
        obtain ⟨-, hm, -⟩ := half?_eq_some hhalf
        rw [Option.getD_some]
        omega
    rw [stringChar_of_le (by omega), charEscape, charUnits]
    split
    · rw [List.flatMap_singleton, unitText, if_neg hcode]
    · rw [List.flatMap_cons, List.flatMap_singleton, unitText, if_neg (by omega), unitText,
        if_neg (by omega)]

theorem flatMap_stringChar (s : String) :
    s.toList.flatMap (stringChar true) = (units s).flatMap unitText := by
  rw [units, List.flatMap_assoc]
  exact List.flatMap_congr fun c _ => stringChar_eq c

/-- The unit that comes first inside a string, unless the string ends. -/
def frontUnit? : List Char → Option (Nat × List Char)
  | [] | '"' :: _ => none
  | '\\' :: 'u' :: cs => unit? cs
  | '\\' :: cs => (escaped? cs).map fun (c, rest) => (c.toNat, rest)
  | c :: cs => some (c.toNat, cs)

theorem frontUnit?_unitEscape (h : n < 0x10000) (rest : List Char) :
    frontUnit? (unitEscape n ++ rest) = some (n, rest) := by
  rw [unitEscape, List.cons_append, List.cons_append, frontUnit?, unit?_hex h]

theorem frontUnit?_unitText (h : n < 0x10000) (rest : List Char) :
    frontUnit? (unitText n ++ rest) = some (n, rest) := by
  rw [unitText]
  split
  · next hascii =>
    have hn : (Char.ofNat n).toNat = n := by
      rw [Char.toNat_ofNat, if_pos]
      exact .inl (by omega)
    rcases stringChar_cases (Char.ofNat n) with
      ⟨-, e, htext, he, hread⟩ | ⟨-, htext, hquote, hescape, -⟩ | htext
    · rw [htext, List.cons_append, List.singleton_append, frontUnit?, hread]
      · exact congrArg (fun m => some (m, rest)) hn
      · exact fun _ h => he (List.cons.inj h).1
    · rw [htext, List.singleton_append, frontUnit?, hn]
      · exact hquote
      · exact fun _ h _ => hescape h
      · exact hescape
    · have hcode : (Surrogate.half? (Char.ofNat n)).getD (Char.ofNat n).toNat = n := by
        rw [half?_eq_none_of_lt (by omega), Option.getD_none, hn]
      rw [htext, charEscape, hcode]
      rw [if_pos h]
      exact frontUnit?_unitEscape h rest
  · exact frontUnit?_unitEscape h rest

/-- The units of a string are known from its text, whatever follows it. -/
theorem eq_of_unitTexts_append {us vs : List Nat} (hus : ∀ n ∈ us, n < 0x10000)
    (hvs : ∀ n ∈ vs, n < 0x10000) {rest more : List Char}
    (h : us.flatMap unitText ++ '"' :: rest = vs.flatMap unitText ++ '"' :: more) :
    us = vs ∧ rest = more := by
  induction us generalizing vs with
  | nil =>
    cases vs with
    | nil => exact ⟨rfl, (List.cons.inj h).2⟩
    | cons v vs =>
      have hread := congrArg frontUnit? h
      rw [List.flatMap_cons, List.append_assoc,
        frontUnit?_unitText (hvs v List.mem_cons_self)] at hread
      cases hread
  | cons u us ih =>
    have hread := congrArg frontUnit? h
    rw [List.flatMap_cons, List.append_assoc,
      frontUnit?_unitText (hus u List.mem_cons_self)] at hread
    cases vs with
    | nil => cases hread
    | cons v vs =>
      rw [List.flatMap_cons, List.append_assoc,
        frontUnit?_unitText (hvs v List.mem_cons_self)] at hread
      obtain ⟨rfl, htail⟩ := Prod.mk.inj (Option.some.inj hread)
      obtain ⟨rfl, hrest⟩ := ih (fun n hn => hus n (List.mem_cons_of_mem _ hn))
        (fun n hn => hvs n (List.mem_cons_of_mem _ hn)) htail
      exact ⟨rfl, hrest⟩

theorem stringText_append_iff (s t : String) (rest more : List Char) :
    (stringText true s).toList ++ rest = (stringText true t).toList ++ more
      ↔ SameUnits s t ∧ rest = more := by
  simp only [stringText, String.toList_ofList, flatMap_stringChar, List.cons_append,
    List.append_assoc, List.nil_append, List.cons.injEq, true_and]
  constructor
  · exact eq_of_unitTexts_append (fun _ => lt_of_mem_units) (fun _ => lt_of_mem_units)
  · rintro ⟨hunits, rfl⟩
    rw [show units s = units t from hunits]

/-- A character that keeps no half is known by its units, whatever follows them. -/
theorem eq_of_charUnits_append (hc : Surrogate.half? c = none) (hd : Surrogate.half? d = none)
    {us vs : List Nat} (h : charUnits c ++ us = charUnits d ++ vs) : c = d ∧ us = vs := by
  have hchar : c.toNat = d.toNat → c = d := Char.toNat_inj.1
  have hcvalid := toNat_cases c
  have hdvalid := toNat_cases d
  simp only [charUnits, hc, hd, Option.getD_none] at h
  -- no unit that is a character is the first half of a pair
  split at h <;> split at h <;>
    simp only [List.cons_append, List.nil_append, List.cons.injEq] at h
  · exact ⟨hchar h.1, h.2⟩
  · omega
  · omega
  · exact ⟨hchar (by omega), h.2.2⟩

theorem charUnits_ne_nil (c : Char) : charUnits c ≠ [] := by
  rw [charUnits]
  split <;> exact List.cons_ne_nil _ _

theorem half?_eq_none_of_isBroken {s : String} (h : Surrogate.isBroken s = false) :
    ∀ c ∈ s.toList, Surrogate.half? c = none := by
  simpa [Surrogate.isBroken] using h

/-- Texts without kept halves are the same if their units are. -/
theorem sameUnits_iff_eq {s t : String} (hs : Surrogate.isBroken s = false)
    (ht : Surrogate.isBroken t = false) : SameUnits s t ↔ s = t := by
  have hchars : ∀ cs ds : List Char, (∀ c ∈ cs, Surrogate.half? c = none) →
      (∀ d ∈ ds, Surrogate.half? d = none) → cs.flatMap charUnits = ds.flatMap charUnits →
      cs = ds := by
    intro cs
    induction cs with
    | nil =>
      rintro ds - - h
      cases ds with
      | nil => rfl
      | cons d ds => exact absurd (List.append_eq_nil_iff.1 h.symm).1 (charUnits_ne_nil d)
    | cons c cs ih =>
      intro ds hcs hds h
      cases ds with
      | nil => exact absurd (List.append_eq_nil_iff.1 h).1 (charUnits_ne_nil c)
      | cons d ds =>
        rw [List.flatMap_cons, List.flatMap_cons] at h
        obtain ⟨hc, hcs⟩ := List.forall_mem_cons.1 hcs
        obtain ⟨hd, hds⟩ := List.forall_mem_cons.1 hds
        obtain ⟨hcd, h⟩ := eq_of_charUnits_append hc hd h
        rw [hcd, ih ds hcs hds h]
  constructor
  · intro h
    exact String.toList_injective (hchars _ _ (half?_eq_none_of_isBroken hs)
      (half?_eq_none_of_isBroken ht) h)
  · rintro rfl
    rfl

end AtomicCss.Json

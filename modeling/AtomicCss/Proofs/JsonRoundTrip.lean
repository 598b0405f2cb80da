import AtomicCss.Proofs.JsonScalars

/-!
# JSON read back as it was written

A value is read back from its text with all it has but two things: two characters that keep the
halves of one surrogate pair come back as the character of the pair, and a member given twice comes
back once. An integer with more digits than integers may have is refused.
-/
namespace AtomicCss.Json

open Decimal

variable {rest : List Char}

mutual

def reread : Value → Except ReadError Value
  | .number (.int n) => if Numeral.IsShort n then .ok (.number (.int n)) else .error .tooManyDigits
  | .text s => .ok (.text (String.ofList (joined s.toList)))
  | .list items => (rereadItems items).map .list
  | .map members => (rereadMembers members).map fun ms => .map (Dict.ofList ms)
  | v => .ok v

def rereadItems : List Value → Except ReadError (List Value)
  | [] => .ok []
  | v :: items => do
    let w ← reread v
    let ws ← rereadItems items
    pure (w :: ws)

def rereadMembers : List (String × Value) → Except ReadError (List (String × Value))
  | [] => .ok []
  | (k, v) :: members => do
    let w ← reread v
    let ms ← rereadMembers members
    pure ((String.ofList (joined k.toList), w) :: ms)

end

section

variable {cs mid more : List Char} {c : Char} {fuel : Nat} {v : Value}

theorem skip_of_not_blank (hc : isBlank c = false) (cs : List Char) : skip (c :: cs) = c :: cs := by
  rw [skip, List.dropWhile_cons, hc]
  rfl

theorem skip_break (f : Layout) (depth : Nat) (cs : List Char) :
    skip ((f.break depth).toList ++ cs) = skip cs := by
  rw [Layout.break]
  split
  · next width _ =>
    have hspaces : ∀ n, skip (List.replicate n ' ' ++ cs) = skip cs := by
      intro n
      induction n with
      | zero => rfl
      | succ n ih => exact ih
    simp only [String.toList_append, String.toList_ofList, List.append_assoc]
    exact hspaces _
  · rfl

theorem value_text {s : List Char} (h : string? (cs.length + 1) cs = some (s, rest)) :
    value (fuel + 1) ('"' :: cs) = .ok (.text (String.ofList s), rest) := by
  rw [value, if_pos rfl, h]

theorem value_list (h : skip cs = c :: mid) (hc : c ≠ ']') : value (fuel + 1) ('[' :: cs)
    = (items fuel (c :: mid)).map fun (vs, rest) => (.list vs, rest) := by
  rw [value, if_neg (by decide), if_pos rfl, h]
  split
  · next heq => exact absurd (List.cons.inj heq).1 hc
  · rfl

theorem value_map (h : skip cs = c :: mid) (hc : c ≠ '\x7d') : value (fuel + 1) ('\x7b' :: cs)
    = (members fuel (c :: mid)).map fun (ms, rest) => (.map (Dict.ofList ms), rest) := by
  rw [value, if_neg (by decide), if_neg (by decide), if_pos rfl, h]
  split
  · next heq => exact absurd (List.cons.inj heq).1 hc
  · rfl

theorem value_word {found : Value × List Char} (h : word? (c :: cs) = some found)
    (hc : c ≠ '"' ∧ c ≠ '[' ∧ c ≠ '\x7b') : value (fuel + 1) (c :: cs) = .ok found := by
  rw [value, if_neg hc.1, if_neg hc.2.1, if_neg hc.2.2, h]

theorem value_digits (hc : c.isDigit = true) (negative : Bool) :
    value (fuel + 1) ((if negative then ['-'] else []) ++ c :: cs)
      = (number ((if negative then ['-'] else []) ++ c :: cs)).map
        fun (n, rest) => (.number n, rest) := by
  have hne : ∀ d : Char, d.isDigit = false → d ≠ c :=
    fun _ hd => (Numeral.ne_of_isDigit hc hd).symm
  have hword : word? ((if negative then ['-'] else []) ++ c :: cs) = none := by
    cases negative <;>
      simp [word?, words, Text.after?, hne 'n' rfl, hne 't' rfl, hne 'f' rfl, hne 'N' rfl,
        hne 'I' rfl, hne '-' rfl]
  cases negative with
  | true =>
    rw [if_pos rfl, List.singleton_append] at hword ⊢
    rw [value, if_neg (by decide), if_neg (by decide), if_neg (by decide), hword]
  | false =>
    rw [if_neg Bool.false_ne_true, List.nil_append] at hword ⊢
    rw [value, if_neg (hne '"' rfl).symm, if_neg (hne '[' rfl).symm, if_neg (hne '\x7b' rfl).symm,
      hword]

theorem items_error {e : ReadError} (h : value fuel cs = .error e) :
    items (fuel + 1) cs = .error e := by
  rw [items, h]
  rfl

theorem items_last (h : value fuel cs = .ok (v, mid)) (hmid : skip mid = ']' :: rest) :
    items (fuel + 1) cs = .ok ([v], rest) := by
  rw [items, h]
  simp only [bind, Except.bind, hmid]
  rfl

theorem items_next (h : value fuel cs = .ok (v, mid)) (hmid : skip mid = ',' :: more) :
    items (fuel + 1) cs
      = (items fuel (skip more)).map fun (vs, rest) => (v :: vs, rest) := by
  rw [items, h]
  simp only [bind, Except.bind, hmid]
  cases items fuel (skip more) <;> rfl

variable {k : List Char}

theorem members_error {e : ReadError} (hk : string? (cs.length + 1) cs = some (k, mid))
    (hmid : skip mid = ':' :: more) (h : value fuel (skip more) = .error e) :
    members (fuel + 1) ('"' :: cs) = .error e := by
  rw [members]
  simp only [hk, bind, Except.bind, pure, Except.pure, hmid, h]

theorem members_last {last : List Char} (hk : string? (cs.length + 1) cs = some (k, mid))
    (hmid : skip mid = ':' :: more) (h : value fuel (skip more) = .ok (v, last))
    (hlast : skip last = '\x7d' :: rest) :
    members (fuel + 1) ('"' :: cs) = .ok ([(String.ofList k, v)], rest) := by
  rw [members]
  simp only [hk, bind, Except.bind, pure, Except.pure, hmid, h, hlast]

theorem members_next {last next : List Char} (hk : string? (cs.length + 1) cs = some (k, mid))
    (hmid : skip mid = ':' :: more) (h : value fuel (skip more) = .ok (v, last))
    (hlast : skip last = ',' :: next) : members (fuel + 1) ('"' :: cs)
      = (members fuel (skip next)).map fun (ms, rest) => ((String.ofList k, v) :: ms, rest) := by
  rw [members]
  simp only [hk, bind, Except.bind, pure, Except.pure, hmid, h, hlast]
  cases members fuel (skip next) <;> rfl

def Opens (c : Char) : Prop := isBlank c = false ∧ c ≠ ']'

theorem opens_of_isDigit (hc : c.isDigit = true) : Opens c :=
  ⟨by simp (disch := decide) [isBlank, Numeral.ne_of_isDigit hc], Numeral.ne_of_isDigit hc rfl⟩

/-- The text of the number is a sign and a numeral, which are read as the number is read back. -/
def HasNumeral (n : Number) : Prop :=
  ∃ (negative : Bool) (c : Char) (cs : List Char),
    (numberText n).toList = (if negative then ['-'] else []) ++ c :: cs
      ∧ c.isDigit = true ∧ ∀ rest, EndsNumber rest →
        (number ((if negative then ['-'] else []) ++ c :: (cs ++ rest))).map
            (fun (n, rest) => (Value.number n, rest))
          = (reread (.number n)).map (·, rest)

def HasWord (n : Number) : Prop :=
  ∃ c cs, (numberText n).toList = c :: cs ∧ c ∈ ['N', 'I', '-']
    ∧ reread (.number n) = .ok (.number n)
    ∧ ∀ rest, word? (c :: (cs ++ rest)) = some (.number n, rest)

theorem hasNumeral_int (n : Int) : HasNumeral (.int n) := by
  obtain ⟨c, cs, hcs⟩ : ∃ c cs, Nat.toDigits 10 n.natAbs = c :: cs :=
    List.exists_cons_of_length_pos Nat.length_toDigits_pos
  have htext : (numberText (.int n)).toList
      = (if decide (n < 0) then ['-'] else []) ++ c :: cs := by
    rw [← hcs, numberText, Number.toList_intText]
    by_cases hneg : n < 0 <;> simp [hneg]
  refine ⟨decide (n < 0), c, cs, htext, isDigit_of_mem_toDigits (hcs ▸ List.mem_cons_self),
    fun rest hrest => ?_⟩
  have hnumber := number_intText n hrest
  rw [numberText] at htext
  rw [htext, List.append_assoc, List.cons_append] at hnumber
  rw [hnumber, reread]
  split <;> rfl

theorem hasNumeral_finite {x : Float} {m q : Int} (hx : Binary.ofFloat x = .finite m q) :
    HasNumeral (.float x) := by
  obtain ⟨w, htext, hw, hnearest⟩ := exists_text floatNotation hx
  obtain ⟨c, cs, hcs, hc⟩ := hw.exists_cons
  refine ⟨x.signBit, c, cs, by rw [numberText, htext, hcs], hc, fun rest hrest => ?_⟩
  have hnumber := number_chars hw x.signBit hrest
  rw [hcs, hnearest, List.cons_append] at hnumber
  rw [hnumber]
  rfl

theorem hasWord_infinite {x : Float} {negative : Bool}
    (hx : Binary.ofFloat x = .infinite negative) : HasWord (.float x) := by
  have heq := Float.eq_of_infinite hx
  rw [HasWord, numberText, Notation.text, hx]
  cases hsign : x.signBit with
  | false =>
    rw [hsign, if_neg Bool.false_ne_true] at heq
    rw [if_neg Bool.false_ne_true, heq]
    refine ⟨'I', "nfinity".toList, ?_, by decide, rfl, fun rest => rfl⟩
    exact (rfl : ("" ++ "Infinity").toList = "Infinity".toList)
  | true =>
    rw [hsign, if_pos rfl] at heq
    rw [if_pos rfl, heq]
    refine ⟨'-', "Infinity".toList, ?_, by decide, rfl, fun rest => rfl⟩
    exact (rfl : ("-" ++ "Infinity").toList = "-Infinity".toList)

theorem hasWord_notANumber {x : Float} (hx : Binary.ofFloat x = .notANumber) :
    HasWord (.float x) := by
  have heq := Float.eq_of_notANumber hx
  rw [HasWord, numberText, Notation.text, hx, heq]
  exact ⟨'N', "aN".toList, rfl, by decide, rfl, fun rest => rfl⟩

theorem numberText_cases (n : Number) : HasNumeral n ∨ HasWord n := by
  cases n with
  | int n => exact .inl (hasNumeral_int n)
  | float x =>
    cases hx : Binary.ofFloat x with
    | finite m q => exact .inl (hasNumeral_finite hx)
    | infinite negative => exact .inr (hasWord_infinite hx)
    | notANumber => exact .inr (hasWord_notANumber hx)

theorem value_numberText (n : Number) (hrest : EndsNumber rest) :
    value (fuel + 1) ((numberText n).toList ++ rest) = (reread (.number n)).map (·, rest) := by
  rcases numberText_cases n with ⟨negative, c, cs, htext, hc, hread⟩ | ⟨c, cs, htext, hc, hw, hread⟩
  · rw [htext, List.append_assoc, List.cons_append, value_digits hc, hread rest hrest]
  · have hopen : c ≠ '"' ∧ c ≠ '[' ∧ c ≠ '\x7b' := by
      simp only [List.mem_cons, List.not_mem_nil, or_false] at hc
      rcases hc with rfl | rfl | rfl <;> decide
    rw [htext, List.cons_append, value_word (hread rest) hopen, hw]
    rfl

theorem exists_numberText (n : Number) : ∃ c cs, (numberText n).toList = c :: cs ∧ Opens c := by
  rcases numberText_cases n with ⟨negative, c, cs, htext, hc, -⟩ | ⟨c, cs, htext, hc, -⟩
  · cases negative with
    | true => exact ⟨'-', c :: cs, htext, by decide, by decide⟩
    | false => exact ⟨c, cs, htext, opens_of_isDigit hc⟩
  · refine ⟨c, cs, htext, ?_⟩
    simp only [List.mem_cons, List.not_mem_nil, or_false] at hc
    rcases hc with rfl | rfl | rfl <;> exact ⟨by decide, by decide⟩

theorem exists_stringText (ascii : Bool) (s : String) : (stringText ascii s).toList
    = '"' :: (s.toList.flatMap (stringChar ascii) ++ ['"']) := by
  rw [stringText, String.toList_ofList, List.cons_append]

theorem exists_write (f : Layout) (depth : Nat) (v : Value) :
    ∃ c cs, (write f depth v).toList = c :: cs ∧ Opens c := by
  cases v with
  | null => exact ⟨'n', "ull".toList, by rw [write]; rfl, by decide, by decide⟩
  | bool b =>
    cases b with
    | true => exact ⟨'t', "rue".toList, by rw [write]; rfl, by decide, by decide⟩
    | false => exact ⟨'f', "alse".toList, by rw [write]; rfl, by decide, by decide⟩
  | number n =>
    rw [write]
    exact exists_numberText n
  | text s => exact ⟨'"', _, by rw [write, exists_stringText], by decide, by decide⟩
  | list items =>
    cases items with
    | nil => exact ⟨'[', [']'], by rw [write]; rfl, by decide, by decide⟩
    | cons v items =>
      simp only [write, String.append_assoc, String.toList_append]
      exact ⟨'[', _, rfl, by decide, by decide⟩
  | map members =>
    cases members with
    | nil => exact ⟨'\x7b', ['\x7d'], by rw [write]; rfl, by decide, by decide⟩
    | cons m members =>
      obtain ⟨k, v⟩ := m
      simp only [write, String.append_assoc, String.toList_append]
      exact ⟨'\x7b', _, rfl, by decide, by decide⟩

theorem string?_stringText (s : String) (rest : List Char) :
    string? ((s.toList.flatMap (stringChar true) ++ '"' :: rest).length + 1)
        (s.toList.flatMap (stringChar true) ++ '"' :: rest)
      = some (joined s.toList, rest) := by
  refine string?_written s.toList rest ?_
  have hlength : ∀ cs : List Char, cs.length ≤ (cs.flatMap (stringChar true)).length := by
    intro cs
    induction cs with
    | nil => exact Nat.le_refl 0
    | cons c cs ih =>
      have hpos : 0 < (stringChar true c).length := by
        rcases stringChar_cases c with ⟨-, e, he, -⟩ | ⟨-, hc, -⟩ | hunits
        · simp [he]
        · simp [hc]
        · rw [hunits, charEscape]
          split <;> simp [unitEscape]
      rw [List.flatMap_cons, List.length_append, List.length_cons]
      omega
  have hle := hlength s.toList
  rw [List.length_append, List.length_cons]
  omega

end

section

variable (f : Layout) (depth : Nat)

def itemsChars : List Value → List Char
  | [] => []
  | v :: items => (write f depth v).toList ++ (writeItems f depth items).toList

def membersChars : List (String × Value) → List Char
  | [] => []
  | (k, v) :: members => (stringText f.ascii k).toList ++ (f.colon.toList
    ++ ((write f depth v).toList ++ (writeMembers f depth members).toList))

theorem write_list (v : Value) (items : List Value) : (write f depth (.list (v :: items))).toList
    = '[' :: ((f.break (depth + 1)).toList ++ (itemsChars f (depth + 1) (v :: items)
      ++ ((f.break depth).toList ++ [']']))) := by
  simp [write, itemsChars]

theorem write_map (m : String × Value) (members : List (String × Value)) :
    (write f depth (.map (m :: members))).toList
      = '\x7b' :: ((f.break (depth + 1)).toList ++ (membersChars f (depth + 1) (m :: members)
        ++ ((f.break depth).toList ++ ['\x7d']))) := by
  simp [write, membersChars]

theorem writeItems_cons (v : Value) (items : List Value) : (writeItems f depth (v :: items)).toList
    = ',' :: ((f.break depth).toList ++ itemsChars f depth (v :: items)) := by
  simp [writeItems, itemsChars]

theorem writeMembers_cons (m : String × Value) (members : List (String × Value)) :
    (writeMembers f depth (m :: members)).toList
      = ',' :: ((f.break depth).toList ++ membersChars f depth (m :: members)) := by
  simp [writeMembers, membersChars]

theorem exists_itemsChars (v : Value) (items : List Value) :
    ∃ c cs, itemsChars f depth (v :: items) = c :: cs ∧ Opens c := by
  obtain ⟨c, cs, hcs, hc⟩ := exists_write f depth v
  exact ⟨c, _, by rw [itemsChars, hcs, List.cons_append], hc⟩

theorem exists_membersChars (m : String × Value) (members : List (String × Value)) :
    ∃ cs, membersChars f depth (m :: members) = '"' :: cs :=
  ⟨_, by rw [membersChars, exists_stringText, List.cons_append]⟩

theorem skip_itemsChars (v : Value) (items : List Value) (rest : List Char) :
    skip ((f.break depth).toList ++ (itemsChars f depth (v :: items) ++ rest))
      = itemsChars f depth (v :: items) ++ rest := by
  obtain ⟨c, cs, hcs, hc⟩ := exists_itemsChars f depth v items
  rw [skip_break, hcs, List.cons_append, skip_of_not_blank hc.1]

theorem skip_membersChars (m : String × Value) (members : List (String × Value))
    (rest : List Char) :
    skip ((f.break depth).toList ++ (membersChars f depth (m :: members) ++ rest))
      = membersChars f depth (m :: members) ++ rest := by
  obtain ⟨cs, hcs⟩ := exists_membersChars f depth m members
  rw [skip_break, hcs, List.cons_append, skip_of_not_blank (by decide)]

theorem endsNumber_cons {c : Char} (hc : c ∈ [',', ']', '\x7d', '\n']) (cs : List Char) :
    EndsNumber (c :: cs) := by
  intro d hd
  obtain rfl : c = d := Option.some.inj hd
  simp only [List.mem_cons, List.not_mem_nil, or_false] at hc
  rcases hc with rfl | rfl | rfl | rfl <;> decide

/-- Neither a comma nor a closing bracket continues a number, on the same line or the next. -/
theorem endsNumber_break {c : Char} (hc : c ∈ [',', ']', '\x7d', '\n']) (cs : List Char) :
    EndsNumber ((f.break depth).toList ++ c :: cs) := by
  rw [Layout.break]
  split
  · rw [String.toList_append]
    exact endsNumber_cons (by decide) _
  · exact endsNumber_cons hc cs

theorem endsNumber_writeItems (items : List Value) {rest : List Char} (hrest : EndsNumber rest) :
    EndsNumber ((writeItems f depth items).toList ++ rest) := by
  cases items with
  | nil => rwa [writeItems, String.toList_empty, List.nil_append]
  | cons v items =>
    rw [writeItems_cons, List.cons_append]
    exact endsNumber_cons (by decide) _

theorem endsNumber_writeMembers (members : List (String × Value)) {rest : List Char}
    (hrest : EndsNumber rest) : EndsNumber ((writeMembers f depth members).toList ++ rest) := by
  cases members with
  | nil => rwa [writeMembers, String.toList_empty, List.nil_append]
  | cons m members =>
    rw [writeMembers_cons, List.cons_append]
    exact endsNumber_cons (by decide) _

theorem skip_colon {c : Char} (hc : isBlank c = false) (cs : List Char) :
    ∃ more, skip (f.colon.toList ++ c :: cs) = ':' :: more ∧ skip more = c :: cs := by
  rw [Layout.colon]
  split
  · exact ⟨' ' :: c :: cs, rfl, skip_of_not_blank hc cs⟩
  · exact ⟨c :: cs, rfl, skip_of_not_blank hc cs⟩

end

section

variable {f : Layout}

/-- A value is read from its text, if nothing follows that a number could go on with. -/
def IsRead (f : Layout) (v : Value) : Prop :=
  ∀ (depth fuel : Nat) (rest : List Char), EndsNumber rest →
    (write f depth v).toList.length ≤ fuel →
    value fuel ((write f depth v).toList ++ rest) = (reread v).map (·, rest)

def AreRead (f : Layout) (vs : List Value) : Prop :=
  ∀ (depth outer fuel : Nat) (rest : List Char), vs ≠ [] →
    (itemsChars f depth vs).length + 1 ≤ fuel →
    items fuel (itemsChars f depth vs ++ ((f.break outer).toList ++ ']' :: rest))
      = (rereadItems vs).map (·, rest)

def MembersRead (f : Layout) (ms : List (String × Value)) : Prop :=
  ∀ (depth outer fuel : Nat) (rest : List Char), ms ≠ [] →
    (membersChars f depth ms).length + 1 ≤ fuel →
    members fuel (membersChars f depth ms ++ ((f.break outer).toList ++ '\x7d' :: rest))
      = (rereadMembers ms).map (·, rest)

/-- There is fuel for at least one step. -/
theorem isRead_of_succ {v : Value} (h : ∀ (depth fuel : Nat) (rest : List Char),
      EndsNumber rest → (write f depth v).toList.length ≤ fuel + 1 →
      value (fuel + 1) ((write f depth v).toList ++ rest) = (reread v).map (·, rest)) :
    IsRead f v := by
  intro depth fuel rest hrest hfuel
  cases fuel with
  | zero =>
    obtain ⟨c, cs, hcs, -⟩ := exists_write f depth v
    rw [hcs] at hfuel
    cases hfuel
  | succ fuel => exact h depth fuel rest hrest hfuel

theorem isRead_text (hascii : f.ascii = true) (s : String) : IsRead f (.text s) := by
  refine isRead_of_succ fun depth fuel rest _ _ => ?_
  have hread := string?_stringText s rest
  rw [write, exists_stringText, hascii, List.cons_append, List.append_assoc,
    List.singleton_append, value_text hread]
  rfl

theorem isRead_list {vs : List Value} (h : AreRead f vs) : IsRead f (.list vs) := by
  refine isRead_of_succ fun depth fuel rest _ hfuel => ?_
  cases vs with
  | nil =>
    rw [write]
    rfl
  | cons v vs =>
    obtain ⟨c, cs, hcs, hblank, hclose⟩ := exists_itemsChars f (depth + 1) v vs
    have hread := h (depth + 1) depth fuel rest (List.cons_ne_nil v vs)
    have hskip := skip_itemsChars f (depth + 1) v vs ((f.break depth).toList ++ ']' :: rest)
    rw [write_list] at hfuel ⊢
    simp only [List.length_cons, List.length_append] at hfuel
    simp only [List.cons_append, List.append_assoc, List.nil_append]
    rw [hcs, List.cons_append] at hskip hread
    rw [hcs, List.cons_append, value_list hskip hclose, hread (by rw [← hcs]; omega), reread]
    cases rereadItems (v :: vs) <;> rfl

theorem isRead_map {ms : List (String × Value)} (h : MembersRead f ms) : IsRead f (.map ms) := by
  refine isRead_of_succ fun depth fuel rest _ hfuel => ?_
  cases ms with
  | nil =>
    rw [write]
    rfl
  | cons m ms =>
    obtain ⟨cs, hcs⟩ := exists_membersChars f (depth + 1) m ms
    have hread := h (depth + 1) depth fuel rest (List.cons_ne_nil m ms)
    have hskip := skip_membersChars f (depth + 1) m ms ((f.break depth).toList ++ '\x7d' :: rest)
    rw [write_map] at hfuel ⊢
    simp only [List.length_cons, List.length_append] at hfuel
    simp only [List.cons_append, List.append_assoc, List.nil_append]
    rw [hcs, List.cons_append] at hskip hread
    rw [hcs, List.cons_append, value_map hskip (by decide), hread (by rw [← hcs]; omega), reread]
    cases rereadMembers (m :: ms) <;> rfl

theorem areRead_cons {v : Value} {vs : List Value} (hv : IsRead f v) (hvs : AreRead f vs) :
    AreRead f (v :: vs) := by
  intro depth outer fuel rest _ hfuel
  obtain ⟨fuel, rfl⟩ := Nat.exists_eq_succ_of_ne_zero (by omega : fuel ≠ 0)
  have hends := endsNumber_break f outer (c := ']') (by decide) rest
  rw [itemsChars, List.length_append] at hfuel
  have hread := hv depth fuel _ (endsNumber_writeItems f depth vs hends) (by omega)
  rw [itemsChars, List.append_assoc, rereadItems]
  cases hw : reread v with
  | error e =>
    rw [hw] at hread
    rw [items_error hread]
    rfl
  | ok w =>
    rw [hw] at hread
    cases vs with
    | nil =>
      rw [items_last hread]
      · rfl
      · rw [writeItems, String.toList_empty, List.nil_append, skip_break]
        rfl
    | cons v' vs =>
      have hmore := hvs depth outer fuel rest (List.cons_ne_nil v' vs)
      have hskip := skip_itemsChars f depth v' vs ((f.break outer).toList ++ ']' :: rest)
      rw [writeItems_cons] at hfuel hread ⊢
      simp only [List.length_cons, List.length_append] at hfuel
      rw [List.cons_append, List.append_assoc] at hread ⊢
      rw [items_next hread (skip_of_not_blank (by decide) _), hskip, hmore (by omega)]
      cases rereadItems (v' :: vs) <;> rfl

theorem membersRead_cons (hascii : f.ascii = true) {k : String} {v : Value}
    {ms : List (String × Value)} (hv : IsRead f v) (hms : MembersRead f ms) :
    MembersRead f ((k, v) :: ms) := by
  intro depth outer fuel rest _ hfuel
  obtain ⟨fuel, rfl⟩ := Nat.exists_eq_succ_of_ne_zero (by omega : fuel ≠ 0)
  have hends := endsNumber_break f outer (c := '\x7d') (by decide) rest
  simp only [membersChars, List.length_append] at hfuel
  have hread := hv depth fuel _ (endsNumber_writeMembers f depth ms hends) (by omega)
  have hkey := string?_stringText k (f.colon.toList ++ ((write f depth v).toList
    ++ ((writeMembers f depth ms).toList ++ ((f.break outer).toList ++ '\x7d' :: rest))))
  obtain ⟨c, cs, hcs, hc⟩ := exists_write f depth v
  obtain ⟨more, hcolon, hmore⟩ := skip_colon f hc.1
    (cs ++ ((writeMembers f depth ms).toList ++ ((f.break outer).toList ++ '\x7d' :: rest)))
  rw [← List.cons_append, ← hcs] at hcolon hmore
  rw [← hmore] at hread
  simp only [membersChars, exists_stringText, hascii, List.append_assoc, List.cons_append,
    List.nil_append]
  rw [rereadMembers]
  cases hw : reread v with
  | error e =>
    rw [hw] at hread
    rw [members_error hkey hcolon hread]
    rfl
  | ok w =>
    rw [hw] at hread
    cases ms with
    | nil =>
      rw [members_last hkey hcolon hread]
      · rfl
      · rw [writeMembers, String.toList_empty, List.nil_append, skip_break]
        rfl
    | cons m ms =>
      have hnext := hms depth outer fuel rest (List.cons_ne_nil m ms)
      have hskip := skip_membersChars f depth m ms ((f.break outer).toList ++ '\x7d' :: rest)
      rw [writeMembers_cons] at hfuel hread hkey hcolon ⊢
      simp only [List.length_cons, List.length_append] at hfuel
      rw [List.cons_append, List.append_assoc] at hread hkey hcolon ⊢
      rw [members_next hkey hcolon hread (skip_of_not_blank (by decide) _), hskip,
        hnext (by omega)]
      cases rereadMembers (m :: ms) <;> rfl

mutual

theorem isRead (hascii : f.ascii = true) : ∀ v : Value, IsRead f v
  | .null => isRead_of_succ fun _ _ _ _ _ => by
    rw [write]
    rfl
  | .bool b => isRead_of_succ fun _ _ _ _ _ => by
    rw [write]
    cases b <;> rfl
  | .number n => isRead_of_succ fun _ _ _ hrest _ => by
    rw [write]
    exact value_numberText n hrest
  | .text s => isRead_text hascii s
  | .list vs => isRead_list (areRead hascii vs)
  | .map ms => isRead_map (membersRead hascii ms)

theorem areRead (hascii : f.ascii = true) : ∀ vs : List Value, AreRead f vs
  | [] => fun _ _ _ _ hne => absurd rfl hne
  | v :: vs => areRead_cons (isRead hascii v) (areRead hascii vs)

theorem membersRead (hascii : f.ascii = true) : ∀ ms : List (String × Value), MembersRead f ms
  | [] => fun _ _ _ _ hne => absurd rfl hne
  | (_, v) :: ms => membersRead_cons hascii (isRead hascii v) (membersRead hascii ms)

end

theorem readChars_write (hascii : f.ascii = true) (depth : Nat) (v : Value) :
    readChars (write f depth v).toList = reread v := by
  obtain ⟨c, cs, hcs, hc⟩ := exists_write f depth v
  have hread := isRead hascii v depth (2 * (write f depth v).toList.length + 2) []
    (by simp [EndsNumber]) (by omega)
  have hskip : skip (write f depth v).toList = (write f depth v).toList := by
    rw [hcs, skip_of_not_blank hc.1]
  rw [List.append_nil] at hread
  rw [readChars, hskip, hread]
  cases reread v <;> rfl

theorem read_text (hascii : f.ascii = true) (v : Value) : read (text f v) = reread v :=
  readChars_write hascii 0 v

end

mutual

/-- A value is read back unless an integer within it has too many digits. -/
theorem exists_reread : ∀ v : Value, (∃ w, reread v = .ok w) ↔ v.IsWritable
  | .null | .bool _ | .text _ | .number (.float _) => by
    simp [reread, Value.IsWritable, Value.integers]
  | .number (.int n) => by
    simp only [reread, Value.IsWritable, Value.integers, List.mem_singleton, forall_eq]
    split <;> simp_all
  | .list items => by
    simp only [reread, Value.IsWritable, Value.integers, map_eq_ok, ← exists_rereadItems items]
    exact ⟨fun ⟨_, ws, hws, _⟩ => ⟨ws, hws⟩, fun ⟨ws, hws⟩ => ⟨_, ws, hws, rfl⟩⟩
  | .map members => by
    simp only [reread, Value.IsWritable, Value.integers, map_eq_ok, ← exists_rereadMembers members]
    exact ⟨fun ⟨_, ms, hms, _⟩ => ⟨ms, hms⟩, fun ⟨ms, hms⟩ => ⟨_, ms, hms, rfl⟩⟩

theorem exists_rereadItems : ∀ items : List Value,
    (∃ ws, rereadItems items = .ok ws) ↔ ∀ n ∈ Value.itemIntegers items, Numeral.IsShort n
  | [] => by simp [rereadItems, Value.itemIntegers]
  | v :: items => by
    have hv := exists_reread v
    rw [Value.IsWritable] at hv
    simp only [rereadItems, Value.itemIntegers, List.mem_append, or_imp, forall_and, ← hv,
      ← exists_rereadItems items, bind_eq_ok, pure_eq_ok]
    exact ⟨fun ⟨_, w, hw, ws, hws, _⟩ => ⟨⟨w, hw⟩, ws, hws⟩,
      fun ⟨⟨w, hw⟩, ws, hws⟩ => ⟨_, w, hw, ws, hws, rfl⟩⟩

theorem exists_rereadMembers : ∀ members : List (String × Value),
    (∃ ms, rereadMembers members = .ok ms) ↔ ∀ n ∈ Value.memberIntegers members, Numeral.IsShort n
  | [] => by simp [rereadMembers, Value.memberIntegers]
  | (_, v) :: members => by
    have hv := exists_reread v
    rw [Value.IsWritable] at hv
    simp only [rereadMembers, Value.memberIntegers, List.mem_append, or_imp, forall_and, ← hv,
      ← exists_rereadMembers members, bind_eq_ok, pure_eq_ok]
    exact ⟨fun ⟨_, w, hw, ms, hms, _⟩ => ⟨⟨w, hw⟩, ms, hms⟩,
      fun ⟨⟨w, hw⟩, ms, hms⟩ => ⟨_, w, hw, ms, hms, rfl⟩⟩

end

end AtomicCss.Json

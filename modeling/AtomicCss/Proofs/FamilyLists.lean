import AtomicCss.Proofs.FontFamilies
import AtomicCss.Proofs.Order

/-!
# Lists of font families as CSS reads them

CSS reads the families of a rule as quoted texts, in which a backslash escapes what follows it, and
as words of letters, digits and hyphens. A quote in a family is escaped when it is written, but a
backslash and a line break are not, and the empty family is written as nothing. A family with a
backslash is read as a shorter one, or its quoted text is closed in another place. All quotes after
that place are then read the other way round, up to the end of the rule.
-/
namespace AtomicCss

namespace FamilyList

/-- A character that ends a line of CSS. -/
def isBreak (c : Char) : Bool := c = '\n' || c = '\r' || c = '\x0c'

def isBlank (c : Char) : Bool := c = ' ' || c = '\t' || isBreak c

/-- A text without the blank at its front. A return and a newline are one blank. -/
def skipBlank : List Char → List Char
  | '\r' :: '\n' :: cs => cs
  | c :: cs => if isBlank c then cs else c :: cs
  | [] => []

/-- The number of the hexadecimal digits at the front of a text, at most so many, with what follows
them. -/
def hexRun : (most number : Nat) → List Char → Nat × List Char
  | most + 1, number, c :: cs =>
    match Digit.hexValue? c with
    | some digit => hexRun most (16 * number + digit) cs
    | none => (number, c :: cs)
  | _, number, cs => (number, cs)

/-- The character of a code. Zero, the halves of surrogate pairs and what is beyond the last
character stand for the replacement character. -/
def charOf (code : Nat) : Char := if code ≠ 0 ∧ code.isValidChar then Char.ofNat code else '\ufffd'

/-- What the text after a backslash stands for, with what follows. A line break stands for nothing,
and up to six hexadecimal digits, which a blank may end, for the character of their number. -/
def escaped? : List Char → Option (List Char × List Char)
  | '\r' :: '\n' :: cs => some ([], cs)
  | c :: cs =>
    if isBreak c then some ([], cs)
    else
      match Digit.hexValue? c with
      | some digit =>
        let (code, rest) := hexRun 5 digit cs
        some ([charOf code], skipBlank rest)
      | none => some ([c], cs)
  | [] => none

theorem length_skipBlank (cs : List Char) : (skipBlank cs).length ≤ cs.length := by
  fun_cases skipBlank cs with
  | case1 cs =>
    simp only [List.length_cons]
    omega
  | case2 c cs => exact Nat.le_succ _
  | case3 => exact le_rfl
  | case4 => exact le_rfl

theorem length_hexRun (most number : Nat) (cs : List Char) :
    (hexRun most number cs).2.length ≤ cs.length := by
  fun_induction hexRun most number cs with
  | case1 most number c cs digit _ ih => exact ih.trans (Nat.le_succ _)
  | case2 => exact le_rfl
  | case3 => exact le_rfl

theorem length_escaped? {cs : List Char} {found : List Char × List Char}
    (h : escaped? cs = some found) : found.2.length < cs.length := by
  rw [escaped?.eq_def] at h
  split at h
  case h_1 cs =>
    obtain rfl := Option.some.inj h
    simp only [List.length_cons]
    omega
  case h_2 c cs _ =>
    split_ifs at h
    · obtain rfl := Option.some.inj h
      exact Nat.lt_succ_self _
    · split at h
      case h_1 digit _ =>
        obtain rfl := Option.some.inj h
        exact Nat.lt_succ_of_le ((length_skipBlank _).trans (length_hexRun 5 digit cs))
      case h_2 =>
        obtain rfl := Option.some.inj h
        exact Nat.lt_succ_self _
  case h_3 => cases h

/-- The text of a quoted item up to its closing quote, with what follows the quote. -/
def quoted? : List Char → Option (List Char × List Char)
  | [] => none
  | c :: cs =>
    if c = '"' then some ([], cs)
    else if isBreak c then none
    else if c = '\\' then
      match _hfound : escaped? cs with
      | none => none
      | some (out, rest) => (quoted? rest).map fun (s, after) => (out ++ s, after)
    else (quoted? cs).map fun (s, after) => (c :: s, after)
termination_by cs => cs.length
decreasing_by
  · exact (length_escaped? _hfound).trans (Nat.lt_succ_self _)
  · exact Nat.lt_succ_self _

theorem length_quoted? {cs : List Char} {found : List Char × List Char}
    (h : quoted? cs = some found) : found.2.length < cs.length := by
  fun_induction quoted? cs generalizing found with
  | case1 => cases h
  | case2 cs =>
    obtain rfl := Option.some.inj h
    exact Nat.lt_succ_self _
  | case3 => cases h
  | case4 => cases h
  | case5 cs out rest hescape _ _ ih =>
    obtain ⟨⟨s, after⟩, hrest, rfl⟩ := Option.map_eq_some_iff.1 h
    exact (ih hrest).trans ((length_escaped? hescape).trans (Nat.lt_succ_self _))
  | case6 c cs _ _ _ ih =>
    obtain ⟨⟨s, after⟩, hrest, rfl⟩ := Option.map_eq_some_iff.1 h
    exact (ih hrest).trans (Nat.lt_succ_self _)

def item? : List Char → Option (List Char × List Char)
  | '"' :: cs => quoted? cs
  | cs =>
    if cs.takeWhile Rule.isPlainFamilyChar = [] then none
    else some (cs.takeWhile Rule.isPlainFamilyChar, cs.dropWhile Rule.isPlainFamilyChar)

theorem length_item? {cs : List Char} {found : List Char × List Char}
    (h : item? cs = some found) : found.2.length < cs.length := by
  rw [item?.eq_def] at h
  split at h
  case h_1 cs => exact (length_quoted? h).trans (Nat.lt_succ_self _)
  case h_2 =>
    split_ifs at h with hword
    obtain rfl := Option.some.inj h
    have hsplit := congrArg List.length (List.takeWhile_append_dropWhile
      (p := Rule.isPlainFamilyChar) (l := cs))
    have hpos := List.length_pos_iff.2 hword
    rw [List.length_append] at hsplit
    simp only
    omega

/-- What follows a comma at the front of a text, which blanks may precede. -/
def comma? (cs : List Char) : Option (List Char) :=
  match cs.dropWhile isBlank with
  | ',' :: rest => some rest
  | _ => none

theorem length_comma? {cs rest : List Char} (h : comma? cs = some rest) :
    rest.length < cs.length := by
  have hblank := (List.dropWhile_suffix isBlank (l := cs)).length_le
  rw [comma?] at h
  split at h
  case h_1 hfront =>
    obtain rfl := Option.some.inj h
    rw [hfront] at hblank
    exact hblank
  case h_2 => cases h

def items? (cs : List Char) : Option (List String × List Char) :=
  match _hitem : item? (cs.dropWhile isBlank) with
  | none => none
  | some (item, rest) =>
    match _hcomma : comma? rest with
    | none => some ([String.ofList item], rest)
    | some more => (items? more).map fun (items, after) => (String.ofList item :: items, after)
termination_by cs.length
decreasing_by
  have hblank := (List.dropWhile_suffix isBlank (l := cs)).length_le
  exact ((length_comma? _hcomma).trans (length_item? _hitem)).trans_le hblank

theorem items?_blank {c : Char} (hc : isBlank c = true) (cs : List Char) :
    items? (c :: cs) = items? cs := by
  rw [items?, items?, List.dropWhile_cons_of_pos hc]

def content (w : List Char) : List Char := w.flatMap fun c => if c = '"' then ['\\', '"'] else [c]

theorem content_cons {c : Char} (hc : c ≠ '"') (w : List Char) :
    content (c :: w) = c :: content w := by
  simp [content, hc]

theorem content_quote (w : List Char) : content ('"' :: w) = '\\' :: '"' :: content w := rfl

/-- What follows a family up to the end of the rule, other families first. -/
def more (names : List String) : List Char :=
  (names.flatMap fun s => ',' :: ' ' :: (Rule.familyText s).toList) ++ [' ', '\x7d']

theorem more_cons (s : String) (names : List String) :
    more (s :: names) = ',' :: ' ' :: ((Rule.familyText s).toList ++ more names) := by
  simp [more]

theorem toList_familyText (s : String) : (Rule.familyText s).toList
    = if s.toList.all Rule.isPlainFamilyChar then s.toList
      else '"' :: (content s.toList ++ ['"']) := by
  rw [Rule.familyText]
  split_ifs
  · rfl
  · rw [String.toList_ofList]
    rfl

/-- A text that begins within a quoted family. -/
def IsInside (cs : List Char) : Prop := ∃ w names, cs = content w ++ '"' :: more names

theorem IsInside.quote_mem {cs : List Char} (h : IsInside cs) : '"' ∈ cs := by
  obtain ⟨w, names, rfl⟩ := h
  simp

/-- A character that is neither a quote nor a backslash stands for itself within a family. -/
theorem content_eq_cons {w cs t : List Char} {c : Char} (h : content w ++ '"' :: t = c :: cs)
    (hquote : c ≠ '"') (hback : c ≠ '\\') : ∃ v, w = c :: v ∧ cs = content v ++ '"' :: t := by
  cases w with
  | nil => exact absurd (List.cons.inj h).1.symm hquote
  | cons d v =>
    by_cases hd : d = '"'
    · subst hd
      exact absurd (List.cons.inj h).1.symm hback
    · rw [content_cons hd, List.cons_append, List.cons.injEq] at h
      exact ⟨v, by rw [h.1], h.2.symm⟩

theorem IsInside.tail {c : Char} {cs : List Char} (h : IsInside (c :: cs)) (hquote : c ≠ '"')
    (hback : c ≠ '\\') : IsInside cs := by
  obtain ⟨w, names, hcs⟩ := h
  obtain ⟨v, -, hv⟩ := content_eq_cons hcs.symm hquote hback
  exact ⟨v, names, hv⟩

theorem IsInside.dropWhile {p : Char → Bool} (hquote : p '"' = false) (hback : p '\\' = false)
    {cs : List Char} (h : IsInside cs) : IsInside (cs.dropWhile p) := by
  induction cs with
  | nil => exact h
  | cons c cs ih =>
    by_cases hc : p c = true
    · rw [List.dropWhile_cons_of_pos hc]
      exact ih (h.tail (by rintro rfl; simp [hquote] at hc) (by rintro rfl; simp [hback] at hc))
    · rwa [List.dropWhile_cons_of_neg hc]

theorem quoted?_append {u : List Char}
    (hu : ∀ c ∈ u, c ≠ '"' ∧ c ≠ '\\' ∧ isBreak c = false) (t : List Char) :
    quoted? (u ++ t) = (quoted? t).map fun (s, after) => (u ++ s, after) := by
  induction u with
  | nil => simp
  | cons c u ih =>
    obtain ⟨hquote, hback, hbreak⟩ := hu c List.mem_cons_self
    rw [List.cons_append, quoted?, if_neg hquote, if_neg (by simp [hbreak]), if_neg hback,
      ih fun c hc => hu c (List.mem_cons_of_mem _ hc), Option.map_map]
    rfl

/-- A character of a word is no mark. -/
theorem ne_of_isPlainFamilyChar {c : Char} (h : Rule.isPlainFamilyChar c = true) :
    c ≠ '"' ∧ c ≠ '\\' ∧ isBreak c = false ∧ isBlank c = false := by
  have hmark : ∀ d : Char, Rule.isPlainFamilyChar d = false → c ≠ d := by
    rintro d hd rfl
    rw [h] at hd
    cases hd
  have hbreak : isBreak c = false := by
    simp [isBreak, hmark '\n' (by decide), hmark '\r' (by decide), hmark '\x0c' (by decide)]
  have hblank : isBlank c = false := by
    simp [isBlank, hbreak, hmark ' ' (by decide), hmark '\t' (by decide)]
  exact ⟨hmark '"' (by decide), hmark '\\' (by decide), hbreak, hblank⟩

/-- A quoted text that is opened between two families is closed by the quote that begins the next
quoted family. -/
theorem isInside_of_quoted?_more {names : List String} {found : List Char × List Char}
    (h : quoted? (more names) = some found) : IsInside found.2 := by
  induction names generalizing found with
  | nil =>
    have hmarks : ∀ c ∈ more [], c ≠ '"' ∧ c ≠ '\\' ∧ isBreak c = false := by simp [more, isBreak]
    rw [← List.append_nil (more []), quoted?_append hmarks, quoted?] at h
    cases h
  | cons s names ih =>
    have hfront : more (s :: names) = [',', ' '] ++ ((Rule.familyText s).toList ++ more names) :=
      more_cons s names
    have hmarks : ∀ c ∈ [',', ' '], c ≠ '"' ∧ c ≠ '\\' ∧ isBreak c = false := by simp [isBreak]
    rw [hfront, quoted?_append hmarks, toList_familyText] at h
    obtain ⟨⟨out, rest⟩, hrest, rfl⟩ := Option.map_eq_some_iff.1 h
    split_ifs at hrest with hplain
    · have hword : ∀ c ∈ s.toList, c ≠ '"' ∧ c ≠ '\\' ∧ isBreak c = false := by
        intro c hc
        have hplainChar := ne_of_isPlainFamilyChar (List.all_eq_true.1 hplain c hc)
        exact ⟨hplainChar.1, hplainChar.2.1, hplainChar.2.2.1⟩
      rw [quoted?_append hword] at hrest
      obtain ⟨found, hmore, hfound⟩ := Option.map_eq_some_iff.1 hrest
      have hinside := ih hmore
      cases hfound
      exact hinside
    · rw [List.cons_append, quoted?, if_pos rfl, List.append_assoc] at hrest
      cases hrest
      exact ⟨s.toList, names, rfl⟩

theorem isInside_of_item? {cs : List Char} {found : List Char × List Char} (hcs : IsInside cs)
    (h : item? cs = some found) : IsInside found.2 := by
  rw [item?.eq_def] at h
  split at h
  case h_1 cs =>
    obtain ⟨w, names, hw⟩ := hcs
    have hnil : w = [] := by
      cases w with
      | nil => rfl
      | cons c w =>
        by_cases hc : c = '"'
        · subst hc
          cases (List.cons.inj hw).1
        · rw [content_cons hc] at hw
          exact absurd (List.cons.inj hw).1.symm hc
    subst hnil
    rw [(List.cons.inj hw).2] at h
    exact isInside_of_quoted?_more h
  case h_2 =>
    split_ifs at h
    obtain rfl := Option.some.inj h
    exact hcs.dropWhile (by decide) (by decide)

theorem isInside_of_comma? {cs rest : List Char} (hcs : IsInside cs) (h : comma? cs = some rest) :
    IsInside rest := by
  have hblank := hcs.dropWhile (p := isBlank) (by decide) (by decide)
  rw [comma?] at h
  split at h
  case h_1 hfront =>
    obtain rfl := Option.some.inj h
    rw [hfront] at hblank
    exact hblank.tail (by decide) (by decide)
  case h_2 => cases h

/-- A list that is read on within a family ends within a family. -/
theorem isInside_of_items? {cs : List Char} {found : List String × List Char} (hcs : IsInside cs)
    (h : items? cs = some found) : IsInside found.2 := by
  fun_induction items? cs generalizing found with
  | case1 => cases h
  | case2 cs item rest hitem =>
    obtain rfl := Option.some.inj h
    exact isInside_of_item? (hcs.dropWhile (by decide) (by decide)) hitem
  | case3 cs item rest hitem more hcomma ih =>
    obtain ⟨⟨items, after⟩, hitems, rfl⟩ := Option.map_eq_some_iff.1 h
    have hrest := isInside_of_item? (hcs.dropWhile (by decide) (by decide)) hitem
    have hafter := ih (isInside_of_comma? hrest hcomma) hitems
    exact hafter

/-- A family that CSS reads as it is written. -/
def IsLegible (w : List Char) : Prop := ∀ c ∈ w, c ≠ '\\' ∧ isBreak c = false

instance (w : List Char) : Decidable (IsLegible w) := List.decidableBAll _ w

theorem skipBlank_content (w t : List Char) :
    ∃ v, skipBlank (content w ++ '"' :: t) = content v ++ '"' :: t ∧ v.length ≤ w.length := by
  generalize htext : content w ++ '"' :: t = cs
  fun_cases skipBlank cs with
  | case1 cs =>
    obtain ⟨u, rfl, hu⟩ := content_eq_cons htext (by decide) (by decide)
    obtain ⟨v, rfl, hv⟩ := content_eq_cons hu.symm (by decide) (by decide)
    exact ⟨v, hv, (Nat.le_succ _).trans (Nat.le_succ _)⟩
  | case2 c cs _ hblank =>
    obtain ⟨v, rfl, hv⟩ := content_eq_cons htext (by rintro rfl; cases hblank)
      (by rintro rfl; cases hblank)
    exact ⟨v, hv, by simp⟩
  | case3 => exact ⟨w, htext.symm, le_rfl⟩
  | case4 => simp at htext

theorem hexRun_content (most number : Nat) (w t : List Char) :
    ∃ code v, hexRun most number (content w ++ '"' :: t) = (code, content v ++ '"' :: t)
      ∧ v.length ≤ w.length := by
  generalize htext : content w ++ '"' :: t = cs
  fun_induction hexRun most number cs generalizing w with
  | case1 most number c cs digit hdigit ih =>
    obtain ⟨v, rfl, hv⟩ := content_eq_cons htext (by rintro rfl; cases hdigit)
      (by rintro rfl; cases hdigit)
    obtain ⟨code, u, hu, hlength⟩ := ih v hv.symm
    exact ⟨code, u, hu, hlength.trans (Nat.le_succ _)⟩
  | case2 most number => exact ⟨number, w, by rw [htext], le_rfl⟩
  | case3 most number => exact ⟨number, w, by rw [htext], le_rfl⟩

/-- What a backslash stands for is not longer than what it takes from the family. -/
theorem escaped?_content {c : Char} (hc : c ≠ '"') (w t : List Char) :
    ∃ out v, escaped? (content (c :: w) ++ '"' :: t) = some (out, content v ++ '"' :: t)
      ∧ out.length + v.length ≤ w.length + 1 := by
  rw [content_cons hc, List.cons_append]
  generalize htext : content w ++ '"' :: t = cs
  rw [escaped?.eq_def]
  split
  case h_1 rest hfront =>
    obtain ⟨rfl, rfl⟩ := List.cons.inj hfront
    obtain ⟨v, rfl, rfl⟩ := content_eq_cons htext (by decide) (by decide)
    exact ⟨[], v, rfl, by simp only [List.length_nil, List.length_cons]; omega⟩
  case h_2 d rest _ hfront =>
    obtain ⟨rfl, rfl⟩ := List.cons.inj hfront
    subst htext
    split_ifs
    · exact ⟨[], w, rfl, by simp⟩
    · split
      · rename_i digit _
        obtain ⟨code, v, hcode, hv⟩ := hexRun_content 5 digit w t
        obtain ⟨u, hblank, hu⟩ := skipBlank_content v t
        refine ⟨[charOf code], u, by simp only [hcode, hblank], ?_⟩
        simp only [List.length_singleton]
        omega
      · exact ⟨[c], w, rfl, by simp [Nat.add_comm]⟩
  case h_3 h => cases h

theorem quoted?_escape {cs out rest : List Char} (h : escaped? cs = some (out, rest)) :
    quoted? ('\\' :: cs) = (quoted? rest).map fun (s, after) => (out ++ s, after) := by
  rw [quoted?, if_neg (by decide), if_neg (by decide), if_pos rfl]
  split
  case h_1 hnone => cases h.symm.trans hnone
  case h_2 hsome =>
    cases h.symm.trans hsome
    rfl

/-- What the quoted text of a family is read as, with what follows it. The text ends with the
family, and is then shorter or the family itself, or it ends within some family. -/
def IsReading (w : List Char) (names : List String) (found : List Char × List Char) : Prop :=
  IsInside found.2 ∨ found.2 = more names
    ∧ (found.1.length < w.length ∨ found.1 = w ∧ IsLegible w)

section IsReading

variable {w out rest : List Char} {names : List String}

theorem IsReading.cons (h : IsReading w names (out, rest)) {c : Char} (hback : c ≠ '\\')
    (hbreak : isBreak c = false) : IsReading (c :: w) names (c :: out, rest) := by
  rcases h with hinside | ⟨hrest, hshorter | ⟨rfl, hlegible⟩⟩
  · exact .inl hinside
  · exact .inr ⟨hrest, .inl (Nat.succ_lt_succ hshorter)⟩
  · exact .inr ⟨hrest, .inr ⟨rfl, List.forall_mem_cons.2 ⟨⟨hback, hbreak⟩, hlegible⟩⟩⟩

theorem IsReading.shorter (h : IsReading w names (out, rest)) {front v : List Char}
    (hlength : front.length + w.length < v.length) :
    IsReading v names (front ++ out, rest) := by
  rcases h with hinside | ⟨hrest, hout⟩
  · exact .inl hinside
  · have hle : out.length ≤ w.length := by
      rcases hout with hshorter | ⟨rfl, -⟩
      · exact hshorter.le
      · exact le_rfl
    refine .inr ⟨hrest, .inl ?_⟩
    simp only [List.length_append]
    omega

theorem isReading_of_quoted? {found : List Char × List Char}
    (h : quoted? (content w ++ '"' :: more names) = some found) : IsReading w names found := by
  induction hlength : w.length using Nat.strong_induction_on generalizing w found with
  | _ n ih =>
    subst hlength
    cases w with
    | nil =>
      rw [content, List.flatMap_nil, List.nil_append, quoted?, if_pos rfl] at h
      cases h
      exact .inr ⟨rfl, .inr ⟨rfl, by simp [IsLegible]⟩⟩
    | cons c w =>
      have hshorter : w.length < (c :: w).length := Nat.lt_succ_self _
      by_cases hquote : c = '"'
      · subst hquote
        have hescape : escaped? ('"' :: (content w ++ '"' :: more names))
            = some (['"'], content w ++ '"' :: more names) := rfl
        rw [content_quote, List.cons_append, List.cons_append, quoted?_escape hescape] at h
        obtain ⟨⟨out, rest⟩, hrest, rfl⟩ := Option.map_eq_some_iff.1 h
        exact (ih _ hshorter hrest rfl).cons (by decide) (by decide)
      rw [content_cons hquote, List.cons_append] at h
      by_cases hback : c = '\\'
      · subst hback
        cases w with
        | nil =>
          -- the backslash escapes the closing quote
          have hescape : escaped? ('"' :: more names) = some (['"'], more names) := rfl
          rw [content, List.flatMap_nil, List.nil_append, quoted?_escape hescape] at h
          obtain ⟨⟨out, rest⟩, hrest, rfl⟩ := Option.map_eq_some_iff.1 h
          have hinside := isInside_of_quoted?_more hrest
          exact .inl hinside
        | cons d w =>
          by_cases hd : d = '"'
          · -- the backslash escapes that of the quote, which closes the text
            subst hd
            have hescape : escaped? ('\\' :: '"' :: (content w ++ '"' :: more names))
                = some (['\\'], '"' :: (content w ++ '"' :: more names)) := rfl
            rw [content_quote, List.cons_append, List.cons_append, quoted?_escape hescape,
              quoted?, if_pos rfl] at h
            cases h
            exact .inl ⟨w, names, rfl⟩
          · obtain ⟨front, v, hescape, hfront⟩ := escaped?_content hd w (more names)
            rw [quoted?_escape hescape] at h
            obtain ⟨⟨out, rest⟩, hrest, rfl⟩ := Option.map_eq_some_iff.1 h
            have hv : front.length + v.length < ('\\' :: d :: w).length := by
              simp only [List.length_cons]
              omega
            exact (ih v.length (by omega) hrest rfl).shorter hv
      · rw [quoted?, if_neg hquote] at h
        split_ifs at h with hbreak
        obtain ⟨⟨out, rest⟩, hrest, rfl⟩ := Option.map_eq_some_iff.1 h
        exact (ih _ hshorter hrest rfl).cons hback (by simpa using hbreak)

end IsReading

theorem quoted?_legible {w : List Char} (hw : IsLegible w) (t : List Char) :
    quoted? (content w ++ '"' :: t) = some (w, t) := by
  induction w with
  | nil =>
    rw [content, List.flatMap_nil, List.nil_append, quoted?, if_pos rfl]
  | cons c w ih =>
    obtain ⟨⟨hback, hbreak⟩, hlegible⟩ := List.forall_mem_cons.1 hw
    by_cases hquote : c = '"'
    · subst hquote
      have hescape : escaped? ('"' :: (content w ++ '"' :: t))
          = some (['"'], content w ++ '"' :: t) := rfl
      rw [content_quote, List.cons_append, List.cons_append, quoted?_escape hescape, ih hlegible]
      rfl
    · rw [content_cons hquote, List.cons_append, quoted?, if_neg hquote, if_neg (by simp [hbreak]),
        if_neg hback, ih hlegible]
      rfl

theorem item?_eq_none {c : Char} (hquote : c ≠ '"') (hplain : Rule.isPlainFamilyChar c = false)
    (cs : List Char) : item? (c :: cs) = none := by
  rw [item?.eq_def]
  split
  case h_1 h => exact absurd (List.cons.inj h).1 hquote
  case h_2 => rw [List.takeWhile_cons_of_neg (by simp [hplain]), if_pos rfl]

theorem item?_word {w t : List Char} (hne : w ≠ [])
    (hw : ∀ c ∈ w, Rule.isPlainFamilyChar c = true)
    (ht : t.takeWhile Rule.isPlainFamilyChar = []) : item? (w ++ t) = some (w, t) := by
  have hdrop : t.dropWhile Rule.isPlainFamilyChar = t := by
    simpa [ht] using List.takeWhile_append_dropWhile (p := Rule.isPlainFamilyChar) (l := t)
  rw [item?.eq_def]
  split
  case h_1 cs h =>
    cases w with
    | nil => exact absurd rfl hne
    | cons c w =>
      have hquote := (ne_of_isPlainFamilyChar (hw c List.mem_cons_self)).1
      exact absurd (List.cons.inj h).1 hquote
  case h_2 =>
    rw [List.takeWhile_append_of_pos hw, List.dropWhile_append_of_pos hw, ht, hdrop,
      List.append_nil, if_neg hne]

theorem takeWhile_more (names : List String) :
    (more names).takeWhile Rule.isPlainFamilyChar = [] := by
  cases names with
  | nil => rfl
  | cons s names => rw [more_cons, List.takeWhile_cons_of_neg (by decide)]

/-- Nothing stands where the empty family is written. -/
theorem item?_more (names : List String) : item? ((more names).dropWhile isBlank) = none := by
  cases names with
  | nil => rfl
  | cons s names =>
    rw [more_cons, List.dropWhile_cons_of_neg (by decide)]
    exact item?_eq_none (by decide) (by decide) _

theorem item?_familyText (s : String) (names : List String) :
    item? (((Rule.familyText s).toList ++ more names).dropWhile isBlank)
      = if s = "" then none
        else if s.toList.all Rule.isPlainFamilyChar then some (s.toList, more names)
        else quoted? (content s.toList ++ '"' :: more names) := by
  rw [toList_familyText]
  split_ifs with hplain hempty hempty
  · subst hempty
    exact item?_more names
  · have hword := List.all_eq_true.1 hplain
    have hne : s.toList ≠ [] := by simpa using hempty
    have hfront : (s.toList ++ more names).dropWhile isBlank = s.toList ++ more names := by
      cases hs : s.toList with
      | nil => exact absurd hs hne
      | cons c w =>
        have hc : c ∈ s.toList := hs ▸ List.mem_cons_self
        have hblank := (ne_of_isPlainFamilyChar (hword c hc)).2.2.2
        rw [List.cons_append, List.dropWhile_cons_of_neg (by simp [hblank])]
    rw [hfront]
    exact item?_word hne hword (takeWhile_more names)
  · subst hempty
    exact absurd rfl hplain
  · rw [List.cons_append, List.dropWhile_cons_of_neg (by decide), List.append_assoc]
    rfl

theorem comma?_more_nil : comma? (more []) = none := rfl

theorem comma?_more_cons (s : String) (names : List String) : comma? (more (s :: names))
    = some (' ' :: ((Rule.familyText s).toList ++ more names)) := by
  rw [more_cons, comma?, List.dropWhile_cons_of_neg (by decide)]
  rfl

theorem items?_of_item? {cs item rest : List Char}
    (h : item? (cs.dropWhile isBlank) = some (item, rest)) : items? cs = match comma? rest with
      | none => some ([String.ofList item], rest)
      | some more =>
        (items? more).map fun (items, after) => (String.ofList item :: items, after) := by
  rw [items?]
  split
  case h_1 hnone => cases h.symm.trans hnone
  case h_2 hsome =>
    cases h.symm.trans hsome
    split <;> simp [*]

theorem exists_item? {cs : List Char} {found : List String × List Char}
    (h : items? cs = some found) :
    ∃ item rest, item? (cs.dropWhile isBlank) = some (item, rest) := by
  rw [items?] at h
  split at h
  case h_1 => cases h
  case h_2 item rest hitem => exact ⟨item, rest, hitem⟩

theorem isInside_of_rest {cs item rest : List Char} {found : List String × List Char}
    (hitem : item? (cs.dropWhile isBlank) = some (item, rest)) (hrest : IsInside rest)
    (h : items? cs = some found) : IsInside found.2 := by
  rw [items?_of_item? hitem] at h
  split at h
  case h_1 =>
    obtain rfl := Option.some.inj h
    exact hrest
  case h_2 more hcomma =>
    obtain ⟨⟨items, after⟩, hitems, rfl⟩ := Option.map_eq_some_iff.1 h
    have hafter := isInside_of_items? (isInside_of_comma? hrest hcomma) hitems
    exact hafter

theorem isReading_of_item? {s : String} {names : List String} {found : List Char × List Char}
    (h : item? (((Rule.familyText s).toList ++ more names).dropWhile isBlank) = some found) :
    s ≠ "" ∧ IsReading s.toList names found := by
  rw [item?_familyText] at h
  split_ifs at h with hempty hplain
  · obtain rfl := Option.some.inj h
    refine ⟨hempty, .inr ⟨rfl, .inr ⟨rfl, fun c hc => ?_⟩⟩⟩
    have hmarks := ne_of_isPlainFamilyChar (List.all_eq_true.1 hplain c hc)
    exact ⟨hmarks.2.1, hmarks.2.2.1⟩
  · exact ⟨hempty, isReading_of_quoted? h⟩

/-- A family is read as a shorter one or as itself. -/
def IsReadAs (s out : String) : Prop :=
  out.length < s.length ∨ out = s ∧ s ≠ "" ∧ IsLegible s.toList

theorem isReadAs_ofList {s : String} {item : List Char} (hne : s ≠ "")
    (h : item.length < s.toList.length ∨ item = s.toList ∧ IsLegible s.toList) :
    IsReadAs s (String.ofList item) := by
  rcases h with hshorter | ⟨rfl, hlegible⟩
  · refine .inl ?_
    rwa [String.length_ofList, ← String.length_toList]
  · exact .inr ⟨String.ofList_toList, hne, hlegible⟩

/-- A list is read up to its end, family by family, or up to a place within some family. -/
theorem readings_of_items? {s : String} {names : List String} {found : List String × List Char}
    (h : items? ((Rule.familyText s).toList ++ more names) = some found) :
    IsInside found.2 ∨ found.2 = more [] ∧ List.Forall₂ IsReadAs (s :: names) found.1 := by
  induction names generalizing s found with
  | nil =>
    obtain ⟨item, rest, hitem⟩ := exists_item? h
    obtain ⟨hne, hinside | ⟨rfl, hread⟩⟩ := isReading_of_item? hitem
    · exact .inl (isInside_of_rest hitem hinside h)
    · rw [items?_of_item? hitem, comma?_more_nil] at h
      obtain rfl := Option.some.inj h
      exact .inr ⟨rfl, .cons (isReadAs_ofList hne hread) .nil⟩
  | cons s' names ih =>
    obtain ⟨item, rest, hitem⟩ := exists_item? h
    obtain ⟨hne, hinside | ⟨rfl, hread⟩⟩ := isReading_of_item? hitem
    · exact .inl (isInside_of_rest hitem hinside h)
    · rw [items?_of_item? hitem, comma?_more_cons] at h
      obtain ⟨⟨items, after⟩, hitems, rfl⟩ := Option.map_eq_some_iff.1 h
      rw [items?_blank rfl] at hitems
      rcases ih hitems with hinside | ⟨hend, hall⟩
      · exact .inl hinside
      · exact .inr ⟨hend, .cons (isReadAs_ofList hne hread) hall⟩

theorem item?_legible {s : String} (hs : s ≠ "" ∧ IsLegible s.toList) (names : List String) :
    item? (((Rule.familyText s).toList ++ more names).dropWhile isBlank)
      = some (s.toList, more names) := by
  rw [item?_familyText, if_neg hs.1]
  split_ifs
  · rfl
  · exact quoted?_legible hs.2 _

/-- A list of legible families is read as it is written. -/
theorem items?_legible {s : String} {names : List String}
    (h : ∀ s' ∈ s :: names, s' ≠ "" ∧ IsLegible s'.toList) :
    items? ((Rule.familyText s).toList ++ more names) = some (s :: names, more []) := by
  induction names generalizing s with
  | nil =>
    rw [items?_of_item? (item?_legible (h s List.mem_cons_self) _), comma?_more_nil,
      String.ofList_toList]
  | cons s' names ih =>
    have hrest := ih fun t ht => h t (List.mem_cons_of_mem s ht)
    rw [items?_of_item? (item?_legible (h s List.mem_cons_self) _), comma?_more_cons]
    simp only [items?_blank (c := ' ') rfl, hrest, Option.map_some, String.ofList_toList]

theorem toList_familyTexts (s : String) (names : List String) :
    (", ".intercalate ((s :: names).map Rule.familyText)).toList ++ " \x7d".toList
      = (Rule.familyText s).toList ++ more names := by
  induction names generalizing s with
  | nil => rfl
  | cons s' names ih =>
    rw [List.map_cons, List.map_cons, String.intercalate_cons_cons, ← List.map_cons,
      String.toList_append, String.toList_append, List.append_assoc, ih, more_cons]
    simp

end FamilyList

theorem Json.length_joined_le (cs : List Char) : (joined cs).length ≤ cs.length := by
  fun_induction joined cs with
  | case1 a b cs c _ ih => exact (Nat.succ_le_succ ih).trans (Nat.le_succ _)
  | case2 a b cs _ ih => exact Nat.succ_le_succ ih
  | case3 => exact le_rfl

namespace Rule

open FamilyList

/-- The families that CSS reads in the rule of a font, with what follows them. -/
def listedFamilies? (className : String) (r : Rule) : Option (List String × List Char) :=
  (Text.after? ("." ++ className ++ " \x7b font-family: ").toList r.text.toList).bind items?

/-- The families of a section that CSS reads as they are. -/
def IsListable (s : String) : Prop :=
  s ≠ "" ∧ IsLegible s.toList ∧ Json.joined s.toList = s.toList

instance (s : String) : Decidable (IsListable s) := instDecidableAnd

theorem listedFamilies?_bodyOf (className s : String) (names : List String) :
    listedFamilies? className ⟨bodyOf (bare className) DecorationProperty.textFont.css
        (", ".intercalate ((s :: names).map familyText)), none⟩
      = items? ((familyText s).toList ++ more names) := by
  have htext : (Rule.text ⟨bodyOf (bare className) DecorationProperty.textFont.css
      (", ".intercalate ((s :: names).map familyText)), none⟩).toList
        = ("." ++ className ++ " \x7b font-family: ").toList
          ++ ((familyText s).toList ++ more names) := by
    rw [← toList_familyTexts, Rule.text, toList_bodyOf_bare]
    simp [DecorationProperty.css]
  rw [listedFamilies?, Text.after?_eq_some.2 htext, Option.bind_some]

/-- A list whose families have been read from a key is read as it was authored iff its families can
be listed. -/
theorem items?_readFamilies {names rest : List String} {s : String}
    (hnames : readFamilies names = s :: rest) :
    items? ((familyText s).toList ++ more rest) = some (names, more [])
      ↔ ∀ t ∈ names, IsListable t := by
  constructor
  · intro h
    rcases readings_of_items? h with hinside | ⟨-, hall⟩
    · have hnone : '"' ∉ more [] := by simp [more]
      exact absurd hinside.quote_mem hnone
    · rw [← hnames, readFamilies, List.forall₂_map_left_iff, List.forall₂_same] at hall
      intro t ht
      rcases hall t ht with hshorter | ⟨hjoined, hne, hlegible⟩
      · have hle := Json.length_joined_le t.toList
        rw [String.length_ofList, ← String.length_toList] at hshorter
        omega
      · have heq : Json.joined t.toList = t.toList := by
          conv_rhs => rw [hjoined, String.toList_ofList]
        exact ⟨by rwa [← hjoined] at hne, by rwa [← hjoined] at hlegible, heq⟩
  · intro h
    have hjoined : ∀ t ∈ names, String.ofList (Json.joined t.toList) = t := fun t ht => by
      rw [(h t ht).2.2, String.ofList_toList]
    have hself : readFamilies names = names := by
      rw [readFamilies, List.map_congr_left hjoined, List.map_id']
    rw [hself] at hnames
    subst hnames
    exact items?_legible fun t ht => ⟨(h t ht).1, (h t ht).2.1⟩

/-- The rule of a font lists the families of the section iff none is empty, holds a backslash or a
line break, or holds the halves of a character next to each other. -/
theorem listedFamilies?_iff {names : List String} {className key : String} {r : Rule}
    (hkey : StyleKey.encode
      { property := DecorationProperty.textFont.name, value := .list (names.map .text) } = .ok key)
    (hrule : ofDecoration .textFont key className = .ok r) :
    listedFamilies? className r = some (names, " \x7d".toList) ↔ ∀ s ∈ names, IsListable s := by
  rw [StyleKey.encode_stateless] at hkey
  obtain rfl : familiesKey names = key := Except.ok.inj hkey
  rw [ofDecoration_familiesKey] at hrule
  split_ifs at hrule with hrefused
  obtain rfl := Except.ok.inj hrule
  have hne : readFamilies names ≠ [] := fun hnil => hrefused (.inl (List.map_eq_nil_iff.1 hnil))
  obtain ⟨s, rest, hread⟩ := List.exists_cons_of_ne_nil hne
  rw [hread, listedFamilies?_bodyOf]
  exact items?_readFamilies hread

/-- Families with a blank, a quote, and none of these. -/
def quotedFamilies : List String := ["Open Sans", "a\"b", "sans-serif"]

theorem listedFamilies?_quotedFamilies : ∃ key r, StyleKey.encode
      { property := DecorationProperty.textFont.name, value := .list (quotedFamilies.map .text) }
        = .ok key
    ∧ ofDecoration .textFont key "a" = .ok r
    ∧ listedFamilies? "a" r = some (quotedFamilies, " \x7d".toList) := by
  have hkey := StyleKey.encode_stateless DecorationProperty.textFont.name
    (.list (quotedFamilies.map .text))
  have hrule := ofDecoration_familiesKey quotedFamilies "a"
  rw [if_neg (by decide)] at hrule
  exact ⟨_, _, hkey, hrule, (listedFamilies?_iff hkey hrule).2 (by decide)⟩

/-- A backslash is not escaped: the family is not listed by its rule. -/
theorem listedFamilies?_ne_backslash : ∃ r,
    ofDecoration .textFont (familiesKey ["a\\b"]) "a" = .ok r
      ∧ listedFamilies? "a" r ≠ some (["a\\b"], " \x7d".toList) := by
  have hrule := ofDecoration_familiesKey ["a\\b"] "a"
  rw [if_neg (by decide)] at hrule
  have hread : readFamilies ["a\\b"] = ["a\\b"] := by decide
  refine ⟨_, hrule, ?_⟩
  rw [hread, listedFamilies?_bodyOf]
  intro h
  exact absurd ((items?_readFamilies hread).1 h) (by decide)

end Rule
end AtomicCss

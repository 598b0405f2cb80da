import Mathlib.Data.List.DropRight
import Mathlib.Data.List.TakeDrop
import Mathlib.Data.List.TakeWhile
import AtomicCss.Json.Reader
import AtomicCss.Proofs.Results
import AtomicCss.Proofs.Text

/-!
# Brackets in JSON texts

A scan that counts the brackets outside strings comes back to where it started over every value
that the reader accepts. A text that the scan passes both from outside a string and from within one
has its quotes the other way round in one of the two, so it cannot end outside in both.
-/
namespace AtomicCss.Json

/-- Where a scan stands: outside strings, within one, or behind a backslash within one, and within
how many brackets. -/
inductive Scan
  | outside (depth : Nat)
  | inString (depth : Nat)
  | escaped (depth : Nat)

namespace Scan

/-- One character further. Outside strings a backslash is refused, as is a bracket that closes
nothing. -/
def step : Scan → Char → Option Scan
  | outside depth, c =>
    if c = '"' then some (inString depth)
    else if c = '[' then some (outside (depth + 1))
    else if c = ']' then if depth = 0 then none else some (outside (depth - 1))
    else if c = '\\' then none
    else some (outside depth)
  | inString depth, c =>
    if c = '"' then some (outside depth)
    else if c = '\\' then some (escaped depth)
    else some (inString depth)
  | escaped depth, _ => some (inString depth)

def run (s : Scan) (cs : List Char) : Option Scan := cs.foldlM step s

/-- Reading from one text to a rest of it takes the scan from one state to another, within any
brackets around. -/
def Takes (s t : Nat → Scan) (cs rest : List Char) : Prop :=
  ∃ front, cs = front ++ rest ∧ ∀ depth, run (s depth) front = some (t depth)

namespace Takes

variable {s t u : Nat → Scan} {cs mid rest : List Char}

theorem refl (s : Nat → Scan) (cs : List Char) : Takes s s cs cs := ⟨[], rfl, fun _ => rfl⟩

theorem trans (h : Takes s t cs mid) (h' : Takes t u mid rest) : Takes s u cs rest := by
  obtain ⟨front, rfl, hfront⟩ := h
  obtain ⟨back, rfl, hback⟩ := h'
  refine ⟨front ++ back, (List.append_assoc _ _ _).symm, fun depth => ?_⟩
  rw [run, List.foldlM_append]
  exact Option.bind_eq_some_iff.2 ⟨t depth, hfront depth, hback depth⟩

theorem cons {c : Char} (hstep : ∀ depth, step (s depth) c = some (t depth))
    (h : Takes t u cs rest) : Takes s u (c :: cs) rest := by
  refine trans ⟨[c], rfl, fun depth => ?_⟩ h
  simp [run, hstep]

/-- Brackets around a text. -/
theorem brackets (h : Takes outside outside cs (']' :: rest)) :
    Takes outside outside ('[' :: cs) rest := by
  have hclose : Takes (fun depth => outside (depth + 1)) outside (']' :: rest) rest :=
    cons (fun _ => rfl) (refl _ _)
  have hinner : Takes (fun depth => outside (depth + 1)) (fun depth => outside (depth + 1)) cs
      (']' :: rest) :=
    h.imp fun _ hfront => ⟨hfront.1, fun depth => hfront.2 (depth + 1)⟩
  exact cons (fun _ => rfl) (hinner.trans hclose)

/-- Characters that are no quotes, brackets or backslashes are passed. -/
theorem plain {front : List Char} (h : ∀ c ∈ front, c ∉ ['"', '[', ']', '\\'])
    (rest : List Char) : Takes outside outside (front ++ rest) rest := by
  induction front with
  | nil => exact refl _ _
  | cons c front ih =>
    obtain ⟨hc, hfront⟩ := List.forall_mem_cons.1 h
    refine cons (fun depth => ?_) (ih hfront)
    simp only [List.mem_cons, List.not_mem_nil, or_false, not_or] at hc
    simp [step, hc]

theorem dropWhile {p : Char → Bool} (h : ∀ c, p c = true → c ∉ ['"', '[', ']', '\\'])
    (cs : List Char) : Takes outside outside cs (cs.dropWhile p) := by
  have htaken : ∀ c ∈ cs.takeWhile p, c ∉ ['"', '[', ']', '\\'] :=
    fun c hc => h c (List.all_eq_true.1 List.all_takeWhile c hc)
  have hplain := plain htaken (cs.dropWhile p)
  rwa [List.takeWhile_append_dropWhile] at hplain

end Takes
end Scan

open Scan

variable {cs rest : List Char}

theorem takes_skip (cs : List Char) : Takes outside outside cs (skip cs) := by
  refine .dropWhile (fun c hc => ?_) cs
  simp only [isBlank, Bool.or_eq_true, decide_eq_true_eq] at hc
  rcases hc with ((rfl | rfl) | rfl) | rfl <;> decide

theorem step_of_hexValue {c : Char} {n : Nat} (h : Digit.hexValue? c = some n) (depth : Nat) :
    step (inString depth) c = some (inString depth) := by
  have hquote : c ≠ '"' := by
    rintro rfl
    cases h
  have hescape : c ≠ '\\' := by
    rintro rfl
    cases h
  simp [step, hquote, hescape]

theorem takes_unit {n : Nat} (h : unit? cs = some (n, rest)) :
    Takes inString inString cs rest := by
  match cs with
  | [] | [_] | [_, _] | [_, _, _] => cases h
  | a :: b :: c :: d :: cs =>
    obtain ⟨m, hm, hpair⟩ := Option.map_eq_some_iff.1 h
    cases hpair
    simp only [Digit.hexNumber?, List.foldl_cons, List.foldl_nil, Option.bind_eq_bind,
      Option.bind_some, Option.bind_eq_some_iff] at hm
    obtain ⟨_, ⟨_, ⟨_, ⟨_, ha, -⟩, _, hb, -⟩, _, hc, -⟩, _, hd, -⟩ := hm
    exact .cons (step_of_hexValue ha) (.cons (step_of_hexValue hb)
      (.cons (step_of_hexValue hc) (.cons (step_of_hexValue hd) (.refl _ _))))

theorem takes_lowUnit {n : Nat} (h : lowUnit? cs = some (n, rest)) :
    Takes inString inString cs rest := by
  rw [lowUnit?.eq_def] at h
  split at h
  · obtain ⟨⟨m, mid⟩, hunit, h⟩ := Option.bind_eq_some_iff.1 h
    obtain ⟨-, hpair⟩ := Option.ite_none_right_eq_some.1 h
    cases hpair
    exact .cons (t := escaped) (fun _ => rfl) (.cons (fun _ => rfl) (takes_unit hunit))
  · cases h

theorem takes_escaped {c : Char} (h : escaped? cs = some (c, rest)) :
    Takes escaped inString cs rest := by
  rw [escaped?.eq_def] at h
  split at h
  case h_9 cs =>
    split at h
    · cases h
    next n mid hunit =>
    have hfirst : Takes escaped inString ('u' :: cs) mid := .cons (fun _ => rfl) (takes_unit hunit)
    split at h
    · split at h
      · next hlow =>
        obtain ⟨-, rfl⟩ := Prod.mk.inj (Option.some.inj h)
        exact hfirst.trans (takes_lowUnit hlow)
      · cases h
        exact hfirst
    · cases h
      exact hfirst
  case h_10 => cases h
  all_goals
    cases h
    exact .cons (fun _ => rfl) (.refl _ _)

theorem takes_string {fuel : Nat} {s : List Char} (h : string? fuel cs = some (s, rest)) :
    Takes inString outside cs rest := by
  induction fuel generalizing cs s with
  | zero => cases h
  | succ fuel ih =>
    cases cs with
    | nil => cases h
    | cons c cs =>
      rw [string?] at h
      split at h
      · next hquote =>
        cases h
        exact .cons (fun _ => by simp [step, hquote]) (.refl _ _)
      split at h
      · next hquote hescape =>
        split at h
        · cases h
        · next hescaped =>
          obtain ⟨⟨s', rest'⟩, hs, hpair⟩ := Option.map_eq_some_iff.1 h
          cases hpair
          exact .cons (t := escaped) (fun _ => by simp [step, hescape])
            ((takes_escaped hescaped).trans (ih hs))
      split at h
      · cases h
      · next hquote hescape _ =>
        obtain ⟨⟨s', rest'⟩, hs, hpair⟩ := Option.map_eq_some_iff.1 h
        cases hpair
        exact .cons (t := inString) (fun _ => by simp [step, hquote, hescape]) (ih hs)

theorem takes_span_isDigit (cs : List Char) :
    Takes outside outside cs (cs.span Char.isDigit).2 := by
  rw [List.span_eq_takeWhile_dropWhile]
  refine .dropWhile (fun c hc hspecial => ?_) cs
  simp only [List.mem_cons, List.not_mem_nil, or_false] at hspecial
  rcases hspecial with rfl | rfl | rfl | rfl <;> cases hc

theorem takes_sign (cs : List Char) : Takes outside outside cs (Numeral.sign cs).2 := by
  rw [Numeral.sign.eq_def]
  split
  · exact .cons (fun _ => rfl) (.refl _ _)
  · exact .cons (fun _ => rfl) (.refl _ _)
  · exact .refl _ _

theorem takes_fractionDigits (cs : List Char) :
    Takes outside outside cs (fractionDigits cs).2 := by
  rw [fractionDigits.eq_def]
  split
  · next cs =>
    split
    · exact .refl _ _
    · exact .cons (fun _ => rfl) (takes_span_isDigit cs)
  · exact .refl _ _

theorem takes_exponent (cs : List Char) :
    Takes outside outside cs ((exponent? cs).getD (0, cs)).2 := by
  cases hexp : exponent? cs with
  | none => exact .refl _ _
  | some found =>
    cases cs with
    | nil => cases hexp
    | cons c cs =>
      rw [exponent?] at hexp
      split at hexp
      · next hmark =>
        have hdigits := takes_span_isDigit (Numeral.sign cs).2
        dsimp only at hexp
        split at hexp
        · cases hexp
        · next hspan =>
          cases hexp
          rw [hspan] at hdigits
          refine .cons (t := outside) (fun _ => ?_) ((takes_sign cs).trans hdigits)
          rcases hmark with rfl | rfl <;> rfl
      · cases hexp

theorem takes_number {n : Number} (h : number cs = .ok (n, rest)) :
    Takes outside outside cs rest := by
  unfold number at h
  split at h
  next negative signed hsigned =>
  have hsign : Takes outside outside cs signed := by
    split at hsigned
    · cases hsigned
      exact .cons (fun _ => rfl) (.refl _ _)
    · cases hsigned
      exact .refl _ _
  split at h
  next whole mid hwhole =>
  have hdigits : Takes outside outside signed mid := by
    split at hwhole
    · cases hwhole
      exact .cons (fun _ => rfl) (.refl _ _)
    · have hspan := takes_span_isDigit signed
      rwa [hwhole] at hspan
  have hstart := hsign.trans (hdigits.trans (takes_fractionDigits mid))
  split at h
  · cases h
  split at h
  next fraction back hfraction =>
  rw [hfraction] at hstart
  split at h
  · split at h
    · cases h
    · cases h
      exact hstart
  · have hexponent := takes_exponent back
    split at h
    next hback =>
    rw [hback] at hexponent
    cases h
    exact hstart.trans hexponent

theorem takes_word {v : Value} (h : word? cs = some (v, rest)) :
    Takes outside outside cs rest := by
  have hall : ((words.map Prod.fst).all fun w =>
      w.toList.all fun c => c ∉ ['"', '[', ']', '\\']) = true := by decide +kernel
  have hwords : ∀ w ∈ words.map Prod.fst, ∀ c ∈ w.toList, c ∉ ['"', '[', ']', '\\'] :=
    fun w hw c hc => of_decide_eq_true (List.all_eq_true.1 (List.all_eq_true.1 hall w hw) c hc)
  obtain ⟨w, hw, hfound⟩ := List.exists_of_findSome?_eq_some h
  obtain ⟨mid, hafter, hpair⟩ := Option.map_eq_some_iff.1 hfound
  cases hpair
  rw [Text.after?_eq_some.1 hafter]
  exact .plain (hwords _ (List.mem_map_of_mem hw)) rest

inductive ReadsValue (fuel : Nat) : List Char → Value → List Char → Prop
  | text {cs s rest : List Char} (h : string? (cs.length + 1) cs = some (s, rest)) :
    ReadsValue fuel ('"' :: cs) (.text (String.ofList s)) rest
  | list {cs rest : List Char} {vs : List Value}
      (h : skip cs = ']' :: rest ∨ items fuel (skip cs) = .ok (vs, rest)) :
    ReadsValue fuel ('[' :: cs) (.list vs) rest
  | map {cs rest : List Char} {d : Dict Value}
      (h : skip cs = '\x7d' :: rest ∨ ∃ ms, members fuel (skip cs) = .ok (ms, rest)) :
    ReadsValue fuel ('\x7b' :: cs) (.map d) rest
  | word {c : Char} {cs rest : List Char} {v : Value} (hc : c ≠ '[')
      (h : word? (c :: cs) = some (v, rest)) :
    ReadsValue fuel (c :: cs) v rest
  | number {c : Char} {cs rest : List Char} {n : Number} (hc : c ≠ '[')
      (h : number (c :: cs) = .ok (n, rest)) :
    ReadsValue fuel (c :: cs) (.number n) rest

theorem readsValue {fuel : Nat} {v : Value} (h : value (fuel + 1) cs = .ok (v, rest)) :
    ReadsValue fuel cs v rest := by
  cases cs with
  | nil => cases h
  | cons c cs =>
    rw [value] at h
    split at h
    · next hquote =>
      subst hquote
      split at h
      · next hs =>
        cases h
        exact .text hs
      · cases h
    split at h
    · next hlist =>
      subst hlist
      split at h
      · next hend =>
        cases h
        exact .list (.inl hend)
      · obtain ⟨⟨vs, back⟩, hitems, hpair⟩ := map_eq_ok.1 h
        cases hpair
        exact .list (.inr hitems)
    · next hlist =>
      split at h
      · next hmap =>
        subst hmap
        split at h
        · next hend =>
          cases h
          exact .map (.inl hend)
        · obtain ⟨⟨ms, back⟩, hmembers, hpair⟩ := map_eq_ok.1 h
          cases hpair
          exact .map (.inr ⟨ms, hmembers⟩)
      split at h
      · next hword =>
        cases h
        exact .word hlist hword
      · obtain ⟨⟨n, back⟩, hnumber, hpair⟩ := map_eq_ok.1 h
        cases hpair
        exact .number hlist hnumber

/-- What values, items and members are read from, the scan passes. -/
structure Passes (fuel : Nat) : Prop where
  value : ∀ {cs v rest}, value fuel cs = .ok (v, rest) → Takes outside outside cs rest
  items : ∀ {cs vs rest}, items fuel cs = .ok (vs, rest) →
    Takes outside outside cs (']' :: rest)
  members : ∀ {cs ms rest}, members fuel cs = .ok (ms, rest) →
    Takes outside outside cs ('\x7d' :: rest)

namespace Passes

variable {fuel : Nat}

theorem list_succ (h : Passes fuel) {v : Value}
    (hv : Json.value (fuel + 1) ('[' :: cs) = .ok (v, rest)) :
    Takes outside outside cs (']' :: rest) := by
  refine (takes_skip cs).trans ?_
  cases readsValue hv with
  | list hlist =>
    obtain hend | hitems := hlist
    · rw [hend]
      exact .refl _ _
    · exact h.items hitems
  | word hc => exact absurd rfl hc
  | number hc => exact absurd rfl hc

theorem value_succ (h : Passes fuel) {v : Value} (hv : Json.value (fuel + 1) cs = .ok (v, rest)) :
    Takes outside outside cs rest := by
  cases readsValue hv with
  | text hs => exact .cons (t := inString) (fun _ => rfl) (takes_string hs)
  | list => exact .brackets (h.list_succ hv)
  | @map cs _ _ hmap =>
    have hbrace : ∀ cs, Takes outside outside ('\x7d' :: cs) cs :=
      fun _ => .cons (fun _ => rfl) (.refl _ _)
    refine .cons (t := outside) (fun _ => rfl) ((takes_skip cs).trans ?_)
    obtain hend | ⟨_, hmembers⟩ := hmap
    · rw [hend]
      exact hbrace _
    · exact (h.members hmembers).trans (hbrace _)
  | word _ hword => exact takes_word hword
  | number _ hnumber => exact takes_number hnumber

theorem items_succ (h : Passes fuel) {vs : List Value}
    (hvs : Json.items (fuel + 1) cs = .ok (vs, rest)) :
    Takes outside outside cs (']' :: rest) := by
  rw [Json.items] at hvs
  obtain ⟨⟨v, back⟩, hv, hvs⟩ := bind_eq_ok.1 hvs
  have hstart := (h.value hv).trans (takes_skip back)
  dsimp only at hvs
  split at hvs
  · next hcomma =>
    rw [hcomma] at hstart
    obtain ⟨⟨more, back⟩, hmore, hvs⟩ := bind_eq_ok.1 hvs
    cases hvs
    exact hstart.trans (.cons (fun _ => rfl) ((takes_skip _).trans (h.items hmore)))
  · next hend =>
    rw [hend] at hstart
    cases hvs
    exact hstart
  · cases hvs

theorem members_succ (h : Passes fuel) {ms : List (String × Value)}
    (hms : Json.members (fuel + 1) cs = .ok (ms, rest)) :
    Takes outside outside cs ('\x7d' :: rest) := by
  rw [Json.members.eq_def] at hms
  dsimp only at hms
  split at hms
  case h_2 => cases hms
  split at hms
  case h_2 => cases hms
  next inner _ found hs =>
  obtain ⟨k, afterKey⟩ := found
  have hname : Takes outside outside ('"' :: inner) afterKey :=
    .cons (t := inString) (fun _ => rfl) (takes_string hs)
  simp only [pure_bind] at hms
  split at hms
  case h_2 => cases hms
  next afterColon hcolon =>
  -- The scan is outside again after the name, the colon and the value.
  have hmark : Takes outside outside afterKey (skip afterColon) := by
    have hskip := takes_skip afterKey
    rw [hcolon] at hskip
    exact hskip.trans (.cons (fun _ => rfl) (takes_skip _))
  obtain ⟨⟨v, back⟩, hv, hms⟩ := bind_eq_ok.1 hms
  have hstart := (hname.trans hmark).trans ((h.value hv).trans (takes_skip back))
  dsimp only at hms
  split at hms
  · next hcomma =>
    rw [hcomma] at hstart
    obtain ⟨⟨more, back⟩, hmore, hms⟩ := bind_eq_ok.1 hms
    cases hms
    exact hstart.trans (.cons (fun _ => rfl) ((takes_skip _).trans (h.members hmore)))
  · next hend =>
    rw [hend] at hstart
    cases hms
    exact hstart
  · cases hms

end Passes

theorem passes (fuel : Nat) : Passes fuel := by
  induction fuel with
  | zero => constructor <;> intro _ _ _ h <;> cases h
  | succ fuel ih => exact ⟨ih.value_succ, ih.items_succ, ih.members_succ⟩

/-- A text that is read as a whole holds a value between blanks. -/
theorem exists_of_readChars {v : Value} (h : readChars cs = .ok v) : ∃ fuel rest,
    value (fuel + 1) (skip cs) = .ok (v, rest) ∧ ∀ c ∈ rest, isBlank c = true := by
  obtain ⟨⟨v', rest⟩, hv, h⟩ := bind_eq_ok.1 h
  dsimp only at h
  split at h
  · next hempty =>
    cases h
    exact ⟨_, rest, hv, List.dropWhile_eq_nil_iff.1 (List.isEmpty_iff.1 hempty)⟩
  · cases h

/-- Between the brackets of a list that is read as a whole, the scan comes back to where it
started. -/
theorem run_of_readChars {inside : List Char} {v : Value}
    (h : readChars ('[' :: inside ++ [']']) = .ok v) :
    run (outside 0) inside = some (outside 0) := by
  obtain ⟨fuel, rest, hv, hblank⟩ := exists_of_readChars h
  obtain ⟨front, hsplit, hfront⟩ := (passes fuel).list_succ hv
  have hrest : rest = [] := by
    rcases rest.eq_nil_or_concat with hnil | ⟨back, c, hlast⟩
    · exact hnil
    · rw [hlast, List.concat_eq_append, ← List.cons_append, ← List.append_assoc] at hsplit
      cases List.append_inj_right' hsplit rfl
      exact absurd (hblank ']' (by simp [hlast])) (by decide)
  rw [hrest] at hsplit
  rw [List.append_inj_left' hsplit rfl]
  exact hfront 0

namespace Scan

def depth : Scan → Nat
  | outside depth | inString depth | escaped depth => depth

theorem depth_le_of_step {s t : Scan} {c : Char} (hc : c ≠ ']') (h : s.step c = some t) :
    s.depth ≤ t.depth := by
  cases s with
  | outside d =>
    simp only [step, hc, if_false] at h
    split at h
    · cases h
      exact le_rfl
    split at h
    · cases h
      exact Nat.le_succ d
    split at h
    · cases h
    · cases h
      exact le_rfl
  | inString d =>
    simp only [step] at h
    split at h
    · cases h
      exact le_rfl
    split at h
    · cases h
      exact le_rfl
    · cases h
      exact le_rfl
  | escaped d =>
    cases h
    exact le_rfl

/-- Without closing brackets the depth does not fall. -/
theorem depth_le_of_run {s t : Scan} {cs : List Char} (hcs : ']' ∉ cs) (h : run s cs = some t) :
    s.depth ≤ t.depth := by
  induction cs generalizing s with
  | nil =>
    cases h
    exact le_rfl
  | cons c cs ih =>
    simp only [List.mem_cons, not_or] at hcs
    obtain ⟨s', hs', hrun⟩ := Option.bind_eq_some_iff.1 h
    exact (depth_le_of_step (Ne.symm hcs.1) hs').trans (ih hcs.2 hrun)

/-- One scan stands outside strings where the other stands within one. -/
inductive Opposed : Scan → Scan → Prop
  | outside_inString (d e : Nat) : Opposed (outside d) (inString e)
  | inString_outside (d e : Nat) : Opposed (inString d) (outside e)

namespace Opposed

theorem symm {s t : Scan} (h : Opposed s t) : Opposed t s := by
  cases h
  · exact .inString_outside _ _
  · exact .outside_inString _ _

/-- A quote turns both scans, and a backslash stops the one outside. -/
theorem of_step {d e : Nat} {c : Char} {s t : Scan} (hs : (outside d).step c = some s)
    (ht : (inString e).step c = some t) : Opposed s t := by
  simp only [step] at hs ht
  split at hs
  · next hquote =>
    rw [if_pos hquote] at ht
    cases hs
    cases ht
    exact .inString_outside _ _
  · next hquote =>
    rw [if_neg hquote] at ht
    by_cases hescape : c = '\\'
    · rw [hescape] at hs
      cases hs
    · rw [if_neg hescape] at ht
      cases ht
      rw [if_neg hescape] at hs
      split at hs
      · cases hs
        exact .outside_inString _ _
      split at hs
      · split at hs <;> cases hs
        exact .outside_inString _ _
      · cases hs
        exact .outside_inString _ _

theorem run {s t s' t' : Scan} {cs : List Char} (h : Opposed s t)
    (hs : s.run cs = some s') (ht : t.run cs = some t') : Opposed s' t' := by
  induction cs generalizing s t with
  | nil =>
    cases hs
    cases ht
    exact h
  | cons c cs ih =>
    obtain ⟨s₁, hstep, hrest⟩ := Option.bind_eq_some_iff.1 hs
    obtain ⟨t₁, hstep', hrest'⟩ := Option.bind_eq_some_iff.1 ht
    cases h with
    | outside_inString => exact ih (of_step hstep hstep') hrest hrest'
    | inString_outside => exact ih (of_step hstep' hstep).symm hrest hrest'

end Opposed
end Scan

/-- What the scan passes between the brackets of a list does not end in another list with no closing
bracket in it. The bracket that opens the other one would stand within a string, and then its end
does, too. -/
theorem Scan.run_ne_of_append {front inside : List Char} (hclosed : ']' ∉ inside)
    (hwhole : run (outside 0) (front ++ '[' :: inside) = some (outside 0)) :
    run (outside 0) inside ≠ some (outside 0) := by
  intro hinside
  obtain ⟨s, hs, hrun⟩ := Option.bind_eq_some_iff.1 ((List.foldlM_append ..).symm.trans hwhole)
  obtain ⟨t, ht, hrun⟩ := Option.bind_eq_some_iff.1 hrun
  have hstring : ∀ d, t = inString d → False := by
    rintro d rfl
    have hopposed := (Opposed.outside_inString 0 d).run hinside hrun
    cases hopposed
  cases s with
  | outside d =>
    cases ht
    exact absurd (depth_le_of_run hclosed hrun) (by simp [Scan.depth])
  | inString d =>
    cases ht
    exact hstring d rfl
  | escaped d =>
    cases ht
    exact hstring d rfl

/-- A list that is read as a whole does not end in another one with no closing bracket in it. -/
theorem not_readChars_of_append {front inside : List Char} {v w : Value} (hclosed : ']' ∉ inside)
    (hwhole : readChars ('[' :: (front ++ '[' :: inside) ++ [']']) = .ok v) :
    readChars ('[' :: inside ++ [']']) ≠ .ok w := fun hpart =>
  run_ne_of_append hclosed (run_of_readChars hwhole) (run_of_readChars hpart)

theorem list_iff_of_value {fuel : Nat} {v : Value} (h : value (fuel + 1) cs = .ok (v, rest)) :
    (∃ items, v = .list items) ↔ cs.head? = some '[' := by
  have hwords : ∀ m ∈ words, ∀ items, m.2 ≠ .list items := by
    simp only [words, List.forall_mem_cons]
    exact ⟨nofun, nofun, nofun, nofun, nofun, nofun, List.forall_mem_nil _⟩
  cases readsValue h with
  | text => simp
  | list => simp
  | map => simp
  | word hc hword =>
    refine iff_of_false ?_ (by simpa using hc)
    rintro ⟨items, rfl⟩
    obtain ⟨m, hm, hfound⟩ := List.exists_of_findSome?_eq_some hword
    obtain ⟨_, -, hpair⟩ := Option.map_eq_some_iff.1 hfound
    exact hwords m hm items (Prod.mk.inj hpair).1
  | number hc => simpa using hc

theorem exists_list_of_readChars {inside : List Char} {v : Value}
    (h : readChars ('[' :: inside) = .ok v) : ∃ items, v = .list items := by
  obtain ⟨_, _, hv, -⟩ := exists_of_readChars h
  exact (list_iff_of_value hv).2 rfl

end AtomicCss.Json

namespace AtomicCss.Blank

variable {p : Char → Bool}

/-- What stands around a trimmed text has been dropped. -/
theorem exists_append_trim (p : Char → Bool) (cs : List Char) : ∃ front back,
    cs = front ++ trim p cs ++ back ∧ (∀ c ∈ front, p c = true) ∧ ∀ c ∈ back, p c = true := by
  refine ⟨cs.takeWhile p, ((cs.dropWhile p).reverse.takeWhile p).reverse, ?_, ?_, ?_⟩
  · rw [trim, List.append_assoc, ← List.reverse_append, List.takeWhile_append_dropWhile,
      List.reverse_reverse, List.takeWhile_append_dropWhile]
  · exact fun c hc => List.all_eq_true.1 List.all_takeWhile c hc
  · exact fun c hc => List.all_eq_true.1 List.all_takeWhile c (List.mem_reverse.1 hc)

theorem getLast?_trim {cs : List Char} {c : Char} (h : (trim p cs).getLast? = some c) :
    p c = false := by
  rw [trim, List.getLast?_reverse] at h
  have hnot := List.head?_dropWhile_not p (cs.dropWhile p).reverse
  rw [h] at hnot
  exact hnot

theorem dropWhile_trim (p : Char → Bool) (cs : List Char) :
    (trim p cs).dropWhile p = trim p cs := by
  have hprefix : trim p cs <+: cs.dropWhile p := List.rdropWhile_prefix p _
  cases htrim : trim p cs with
  | nil => rfl
  | cons c t =>
    obtain ⟨rest, hrest⟩ := htrim ▸ hprefix
    have hnot := List.head?_dropWhile_not p cs
    rw [← hrest] at hnot
    exact List.dropWhile_cons_of_neg (Bool.eq_false_iff.1 hnot)

end AtomicCss.Blank

namespace AtomicCss.Json

open Scan

/-- A text without blanks at its ends that is read as a list stands in brackets, and the scan comes
back between them. -/
theorem exists_brackets_of_trim {cs : List Char} {items : List Value}
    (h : readChars (Blank.trim isBlank cs) = .ok (.list items)) :
    ∃ inside, Blank.trim isBlank cs = '[' :: inside ++ [']']
      ∧ run (outside 0) inside = some (outside 0) := by
  obtain ⟨fuel, rest, hv, hblank⟩ := exists_of_readChars h
  rw [skip, Blank.dropWhile_trim] at hv
  have hhead := (list_iff_of_value hv).1 ⟨items, rfl⟩
  cases htrim : Blank.trim isBlank cs with
  | nil => simp [htrim] at hhead
  | cons c inner =>
    rw [htrim, List.head?_cons, Option.some.injEq] at hhead
    rw [htrim, hhead] at hv
    obtain ⟨front, rfl, hfront⟩ := (passes fuel).list_succ hv
    have hrest : rest = [] := by
      rcases rest.eq_nil_or_concat with hnil | ⟨back, d, hlast⟩
      · exact hnil
      · have hd : (Blank.trim isBlank cs).getLast? = some d := by
          rw [htrim, hlast, List.concat_eq_append, ← List.cons_append, ← List.cons_append,
            ← List.append_assoc, List.getLast?_concat]
        have hend := Blank.getLast?_trim hd
        rw [hblank d (by simp [hlast])] at hend
        cases hend
    rw [hhead, hrest]
    exact ⟨front, rfl, hfront 0⟩

end AtomicCss.Json

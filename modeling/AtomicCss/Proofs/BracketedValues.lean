import AtomicCss.Proofs.ColorRules
import AtomicCss.Proofs.RuleFailures

/-!
# The value of a color key and its brackets

The color of a key is read from the brackets at the very end of the key, and the value of the key is
what follows its first `__`. The two are one text only if nothing but blanks stands in the value
beside the brackets. A key in which something else stands there should be refused, but it is not if
what is between the brackets is a color.
-/
namespace AtomicCss.Rule

def HasListValue (key : String) (items : List Value) : Prop :=
  ∃ k, StyleKey.decode key = .ok k
    ∧ Json.readChars (Blank.trim Json.isBlank k.value.toList) = .ok (.list items)

def IsRefused (x : Except RuleError Rule) : Prop :=
  ∃ e d, x = .error e ∧ e.diagnostic? = some d

/-- A rule has the color of the list that the value of its key is, and a key whose value is no list
is refused. -/
structure KeepsToValue (force : Bool) (key className : String) : Prop where
  rule : ∀ r, ofColor force key className = .ok r → ∃ items k p hex selectors,
    HasListValue key items ∧ StyleKey.decode key = .ok k
      ∧ ColorProperty.ofName? k.property = some p ∧ Color.hexOfHsla (.list items) = .ok hex
      ∧ r = ⟨bodyOf selectors p.css hex, none⟩
  refusal : (∀ items, ¬HasListValue key items) → IsRefused (ofColor force key className)

/-- The brackets at the end of a key are all of its value, but for blanks at the ends. -/
def IsBracketed (key : String) : Prop :=
  ∃ k inside, StyleKey.decode key = .ok k ∧ bracketed? key.toList = some inside
    ∧ Blank.trim Json.isBlank k.value.toList = '[' :: inside ++ [']']

theorem exists_append_dropFinalBreak (cs : List Char) :
    ∃ tail, cs = dropFinalBreak cs ++ tail ∧ ∀ c ∈ tail, Json.isBlank c = true := by
  rw [dropFinalBreak]
  split
  · next rest hrest =>
    exact ⟨['\n'], by rw [← List.reverse_cons, ← hrest, List.reverse_reverse],
      by simp [Json.isBlank]⟩
  · exact ⟨[], (List.append_nil cs).symm, List.forall_mem_nil _⟩

/-- The brackets that are read stand at the end of the key, but for a line break, and hold no
closing bracket. -/
theorem split_of_bracketed? {key inside : List Char} (h : bracketed? key = some inside) :
    ']' ∉ inside ∧ ∃ front tail, key = (front ++ '[' :: inside) ++ ']' :: tail
      ∧ ∀ c ∈ tail, Json.isBlank c = true := by
  obtain ⟨tail, htail, hblank⟩ := exists_append_dropFinalBreak key
  obtain ⟨body, hbody⟩ : ∃ body, dropFinalBreak key = body ++ [']'] := by
    obtain ⟨body, hbody, -⟩ := Option.bind_eq_some_iff.1 h
    refine ⟨body, ?_⟩
    rw [dropLast?] at hbody
    split at hbody
    · next c rest hrest =>
      obtain ⟨rfl, hrest'⟩ := Option.ite_none_right_eq_some.1 hbody
      cases hrest'
      rw [← List.reverse_cons, ← hrest, List.reverse_reverse]
    · cases hbody
  have hsame : bracketed? (body ++ [']']) = bracketed? key := by
    rw [bracketed?, bracketed?, hbody, dropFinalBreak_concat (by decide)]
  obtain ⟨hclosed, front, hfront⟩ := exists_of_bracketed? (hsame.trans h)
  refine ⟨hclosed, front, tail, ?_, hblank⟩
  rw [htail, hbody, hfront, List.append_assoc, List.singleton_append]

theorem exists_append_value {key : String} {k : StyleKey.Decoded}
    (h : StyleKey.decode key = .ok k) : ∃ head, key.toList = head ++ k.value.toList := by
  rw [StyleKey.decode] at h
  split at h
  · cases h
  · next hmark =>
    obtain ⟨⟨front, rest⟩, hcut, hpair⟩ := Option.map_eq_some_iff.1 hmark
    cases hpair
    cases h
    exact ⟨front ++ "__".toList, by simpa using Text.eq_append_of_cut hcut⟩

/-- Texts that end with a mark, but for characters of another kind, are one text up to the mark. -/
theorem eq_of_append_last {p : Char → Bool} {c : Char} {a b s t : List Char} (hc : p c = false)
    (hs : ∀ d ∈ s, p d = true) (ht : ∀ d ∈ t, p d = true) (h : a ++ c :: s = b ++ c :: t) :
    a = b := by
  have hnot : ∀ {s : List Char}, (∀ d ∈ s, p d = true) → c ∉ s.reverse := by
    intro s hs hmem
    rw [hs c (List.mem_reverse.1 hmem)] at hc
    cases hc
  have hreverse := congrArg List.reverse h
  simp only [List.reverse_append, List.reverse_cons, List.append_assoc,
    List.singleton_append] at hreverse
  exact List.reverse_injective (Text.eq_of_append_mark (hnot hs) (hnot ht) hreverse).2

/-- If both the value of a key and the text in the brackets are lists, they are one. -/
theorem isBracketed_of_hasListValue {key : String} {inside : List Char} {v : Value}
    {items : List Value} (hinside : bracketed? key.toList = some inside)
    (hv : Json.readChars ('[' :: inside ++ [']']) = .ok v) (hlist : HasListValue key items) :
    IsBracketed key := by
  obtain ⟨k, hk, hread⟩ := hlist
  obtain ⟨mid, hmid, hrun⟩ := Json.exists_brackets_of_trim hread
  obtain ⟨before, after, hvalue, -, hafter⟩ :=
    Blank.exists_append_trim Json.isBlank k.value.toList
  obtain ⟨head, hhead⟩ := exists_append_value hk
  obtain ⟨hclosed, front, tail, hkey, htail⟩ := split_of_bracketed? hinside
  have hends : (head ++ before) ++ '[' :: mid = front ++ '[' :: inside := by
    refine eq_of_append_last (by decide : Json.isBlank ']' = false) hafter htail ?_
    rw [← hkey, hhead, hvalue, hmid]
    simp
  suffices heq : inside = mid from ⟨k, inside, hk, hinside, heq ▸ hmid⟩
  have hrun' := Json.run_of_readChars hv
  -- One of the two would stand within the other, and end where the other ends.
  rcases List.append_eq_append_iff.1 hends with ⟨between, -, hbetween⟩ | ⟨between, -, hbetween⟩
  · cases between with
    | nil => exact (List.cons.inj hbetween).2.symm
    | cons d rest =>
      have hmid : mid = rest ++ '[' :: inside := (List.cons.inj hbetween).2
      rw [hmid] at hrun
      exact absurd hrun' (Json.Scan.run_ne_of_append hclosed hrun)
  · cases between with
    | nil => exact (List.cons.inj hbetween).2
    | cons d rest =>
      have hinner : inside = rest ++ '[' :: mid := (List.cons.inj hbetween).2
      rw [hinner, List.mem_append, not_or, List.mem_cons, not_or] at hclosed
      rw [hinner] at hrun'
      exact absurd hrun (Json.Scan.run_ne_of_append hclosed.2.2 hrun')

variable {force : Bool} {key className : String}

/-- The text that is read as the color of a key, whether the color has a result or overflows. -/
theorem exists_read_of_not_isRefused (h : ¬IsRefused (ofColor force key className)) :
    ∃ inside v, bracketed? key.toList = some inside
      ∧ Json.readChars ('[' :: inside ++ [']']) = .ok v := by
  cases hcolor : ofColor force key className with
  | ok r =>
    simp only [ofColor, bind_eq_ok, given_eq_ok] at hcolor
    obtain ⟨inside, hinside, k, -, p, -, hex, hhex, -⟩ := hcolor
    obtain ⟨v, hv, -⟩ := colorOfJson_eq_ok.1 hhex
    exact ⟨inside, v, hinside, hv⟩
  | error e =>
    have hnone : e.diagnostic? = none := by
      rw [Option.eq_none_iff_forall_ne_some]
      exact fun d hd => h ⟨e, d, hcolor, hd⟩
    obtain ⟨inside, _, _, v, hinside, -, -, hv, -⟩ :=
      unreported_ofColor.1 (hcolor ▸ unreported_error.2 hnone)
    exact ⟨inside, v, hinside, hv⟩

theorem keepsToValue_of_isBracketed (h : IsBracketed key) : KeepsToValue force key className := by
  obtain ⟨k, inside, hk, hinside, htrim⟩ := h
  have hlist : ∀ {v}, Json.readChars ('[' :: inside ++ [']']) = .ok v →
      ∃ items, v = .list items ∧ HasListValue key items := by
    intro v hv
    obtain ⟨items, rfl⟩ := Json.exists_list_of_readChars hv
    exact ⟨items, rfl, k, hk, by rw [htrim, hv]⟩
  constructor
  case rule =>
    intro r hr
    simp only [ofColor, bind_eq_ok, pure_eq_ok, mapError_eq_ok, given_eq_ok, hinside, hk,
      Option.some.injEq, Except.ok.injEq, exists_eq_left'] at hr
    obtain ⟨p, hp, hex, hhex, _, -, selectors, -, rfl⟩ := hr
    obtain ⟨v, hv, hcolor⟩ := colorOfJson_eq_ok.1 hhex
    obtain ⟨items, rfl, hitems⟩ := hlist hv
    exact ⟨items, k, p, hex, selectors, hitems, hk, hp, hcolor, rfl⟩
  case refusal =>
    intro hno
    by_contra hrefused
    obtain ⟨inside', v, hinside', hv⟩ := exists_read_of_not_isRefused hrefused
    obtain rfl := Option.some.inj (hinside.symm.trans hinside')
    obtain ⟨items, -, hitems⟩ := hlist hv
    exact hno items hitems

/-- The color of a key is that of its value exactly if the key is refused or nothing but blanks
stands in the value beside the brackets at its end. -/
theorem keepsToValue_iff (force : Bool) (key className : String) :
    KeepsToValue force key className
      ↔ IsRefused (ofColor force key className) ∨ IsBracketed key := by
  constructor
  · intro h
    rw [or_iff_not_imp_left]
    intro hrefused
    obtain ⟨inside, v, hinside, hv⟩ := exists_read_of_not_isRefused hrefused
    obtain ⟨items, hitems⟩ : ∃ items, HasListValue key items := by
      by_contra hno
      exact hrefused (h.refusal (not_exists.1 hno))
    exact isBracketed_of_hasListValue hinside hv hitems
  · rintro (⟨e, d, he, hd⟩ | hbracketed)
    · constructor
      case rule =>
        intro r hr
        rw [he] at hr
        cases hr
      case refusal => exact fun _ => ⟨e, d, he, hd⟩
    · exact keepsToValue_of_isBracketed hbracketed

theorem not_keepsToValue_red : ¬KeepsToValue false "boxColor__red[0,0,0,1]" "a" := by
  have hrule : (ofColor false "boxColor__red[0,0,0,1]" "a").toOption.isSome = true := by
    decide +kernel
  have hvalue : (StyleKey.decode "boxColor__red[0,0,0,1]").toOption.map (·.value)
      = some "red[0,0,0,1]" := by decide +kernel
  have hread : (Json.readChars (Blank.trim Json.isBlank "red[0,0,0,1]".toList)).toOption.isSome
      = false := by decide +kernel
  intro h
  obtain ⟨r, hr⟩ := exists_of_isSome_toOption hrule
  obtain ⟨items, _, _, _, _, ⟨k, hk, hitems⟩, -⟩ := h.rule r hr
  rw [hk] at hvalue
  rw [← Option.some.inj hvalue, hitems] at hread
  cases hread

end AtomicCss.Rule

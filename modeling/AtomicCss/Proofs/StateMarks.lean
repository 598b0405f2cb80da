import AtomicCss.Proofs.ColorRules
import AtomicCss.Proofs.ColorTexts
import AtomicCss.Proofs.Gating
import AtomicCss.Proofs.KeyReading
import AtomicCss.Proofs.NumberTexts
import AtomicCss.Proofs.SelectorConditions
import AtomicCss.Proofs.SheetTexts

/-!
# The marks of states in the texts of rules

Whether a rule needs a state, and which, is found by search in its text. In the text of a rule with
the selectors of a class under states the search finds the conditions of the selectors, and neither
the class nor the declaration is taken for a condition.

Main definitions: `Rule.Mark`, what is searched for, and `Rule.InStates`, a rule in the states of a
key.
-/
namespace AtomicCss

theorem StyleProperty.isGate (p : StyleProperty) : Selector.IsGate p.gate := by
  cases p
  case shadow => exact .inr rfl
  all_goals exact .inl rfl

/-- No name of a property has the signs that end lines or begin conditions. -/
theorem StyleProperty.notMem_css (p : StyleProperty) :
    ':' ∉ p.css.toList ∧ '.' ∉ p.css.toList ∧ '\n' ∉ p.css.toList := by
  cases p with
  | decoration p => cases p <;> decide
  | scale p => cases p <;> decide
  | color p => cases p <;> decide
  | shadow => decide

namespace Rule

/-- A kind of mark that is searched for in texts. -/
structure Mark where
  /-- Whether a text begins with a mark. -/
  begins : List Char → Bool
  /-- Whether a mark begins anywhere in a text. -/
  occurs : List Char → Bool
  occurs_nil : occurs [] = false
  occurs_cons : ∀ c cs, occurs (c :: cs) = (begins (c :: cs) || occurs cs)
  sharp : ∀ c cs, begins (c :: cs) = true → ∃ d rest, cs = d :: rest ∧ ¬Calm c d
  /-- What follows a condition does not count. -/
  closed : ∀ c ∈ Selector.stateConditions, ∀ d rest, Word.isWord d = false →
    begins (c.text.toList ++ d :: rest) = begins c.text.toList

/-- A calm text after which no mark can go on. -/
structure Settled (cs : List Char) : Prop where
  calm : IsCalm cs
  last : ∀ c ∈ cs.getLast?, c ≠ ':' ∧ c ≠ '.'

theorem settled_of_notMem {cs : List Char} (hcolon : ':' ∉ cs) (hpoint : '.' ∉ cs) :
    Settled cs where
  calm := isCalm_of_notMem hcolon hpoint
  last _ hc := ⟨fun h => hcolon (h ▸ List.mem_of_getLast? hc),
    fun h => hpoint (h ▸ List.mem_of_getLast? hc)⟩

theorem Settled.append {cs ds : List Char} (hc : Settled cs) (hd : Settled ds) :
    Settled (cs ++ ds) where
  calm := hc.calm.append hd.calm fun c hlast _ _ =>
    ⟨fun h => absurd h (hc.last c hlast).1, fun h => absurd h (hc.last c hlast).2⟩
  last c hlast := by
    rcases List.eq_nil_or_concat ds with rfl | ⟨ds, d, rfl⟩
    · rw [List.append_nil] at hlast
      exact hc.last c hlast
    · rw [List.concat_eq_append, ← List.append_assoc, List.getLast?_append_of_ne_nil _ (by simp)]
        at hlast
      exact hd.last c (by simpa using hlast)

theorem settled_colon : Settled ": ".toList :=
  ⟨List.isChain_cons_cons.2 ⟨⟨fun _ => rfl, by decide⟩, List.IsChain.singleton _⟩, by simp⟩

theorem settled_declaration {property value : String}
    (hproperty : ':' ∉ property.toList ∧ '.' ∉ property.toList) (hvalue : IsQuiet value.toList) :
    Settled (" \x7b ".toList
      ++ (property.toList ++ (": ".toList ++ (value.toList ++ " \x7d".toList)))) := by
  have hend : Settled (value.toList ++ " \x7d".toList) := by
    refine ⟨(hvalue.append (.of_noPoint (by decide) (by decide)) (.inr (by decide))).calm, ?_⟩
    rw [List.getLast?_append_of_ne_nil _ (by decide)]
    simp
  exact (settled_of_notMem (by decide) (by decide)).append
    ((settled_of_notMem hproperty.1 hproperty.2).append (settled_colon.append hend))

namespace Mark

variable (m : Mark)

/-- There is no mark in a settled text, nor where it ends. -/
theorem occurs_settled {cs : List Char} (h : Settled cs) (rest : List Char) :
    m.occurs (cs ++ rest) = m.occurs rest := by
  induction cs with
  | nil => rfl
  | cons c cs ih =>
    have hbegins : m.begins (c :: (cs ++ rest)) = false := by
      rw [Bool.eq_false_iff]
      intro hbegins
      obtain ⟨d, tail, htail, hcalm⟩ := m.sharp c (cs ++ rest) hbegins
      cases cs with
      | nil =>
        obtain ⟨hcolon, hpoint⟩ := h.last c rfl
        exact hcalm ⟨fun h => absurd h hcolon, fun h => absurd h hpoint⟩
      | cons e cs =>
        obtain rfl := (List.cons.inj htail).1
        exact hcalm (List.isChain_cons_cons.1 h.calm).1
    have hcs : Settled cs := by
      refine ⟨h.calm.of_cons, fun d hd => h.last d ?_⟩
      cases cs with
      | nil => cases hd
      | cons e cs => simpa using hd
    rw [List.cons_append, m.occurs_cons, hbegins, Bool.false_or, ih hcs]

theorem begins_class {className : String} (hname : ClassName.IsWord className.toList)
    (rest : List Char) :
    m.begins ((SimpleSelector.ofClass className).text.toList ++ rest) = false := by
  obtain ⟨c, letters, hletters⟩ := List.exists_cons_of_ne_nil hname.1
  have hc : c ≠ '-' := by
    rintro rfl
    exact absurd (hname.2 '-' (hletters ▸ List.mem_cons_self)) (by decide)
  have htext : (SimpleSelector.ofClass className).text.toList ++ rest
      = '.' :: c :: (letters ++ rest) := by
    simp [SimpleSelector.text, hletters]
  rw [htext, Bool.eq_false_iff]
  intro hbegins
  obtain ⟨d, tail, htail, hcalm⟩ := m.sharp _ _ hbegins
  obtain rfl := (List.cons.inj htail).1
  exact hcalm ⟨fun h => absurd h (by decide), fun _ => hc⟩

variable {className : String} (hname : ClassName.IsWord className.toList)
include hname

theorem begins_ofClass : m.begins (SimpleSelector.ofClass className).text.toList = false := by
  simpa using m.begins_class hname []

theorem begins_condition {c : SimpleSelector} (hc : Selector.IsCondition className c) {d : Char}
    (hd : Word.isWord d = false) (rest : List Char) :
    m.begins (c.text.toList ++ d :: rest) = m.begins c.text.toList := by
  rcases hc with rfl | hc
  · rw [m.begins_class hname, m.begins_ofClass hname]
  · exact m.closed c hc d rest hd

theorem occurs_condition {c : SimpleSelector} (hc : Selector.IsCondition className c) {d : Char}
    (hd : Word.isWord d = false) (rest : List Char) :
    m.occurs (c.text.toList ++ d :: rest) = (m.begins c.text.toList || m.occurs (d :: rest)) := by
  have hstate : ∀ c ∈ Selector.stateConditions,
      ':' ∉ c.text.toList.tail ∧ '.' ∉ c.text.toList.tail := by decide
  have htail : Settled c.text.toList.tail := by
    rcases hc with rfl | hc
    · have hletter : ∀ c ∈ className.toList, c ≠ ':' ∧ c ≠ '.' := by
        intro c hc
        constructor <;> rintro rfl <;> exact absurd (hname.2 _ hc) (by decide)
      refine settled_of_notMem ?_ ?_ <;> intro h
      · exact (hletter ':' (by simpa [SimpleSelector.text] using h)).1 rfl
      · exact (hletter '.' (by simpa [SimpleSelector.text] using h)).2 rfl
    · exact settled_of_notMem (hstate c hc).1 (hstate c hc).2
  have hbegins := m.begins_condition hname hc hd rest
  obtain ⟨x, cs, htext⟩ : ∃ x cs, c.text.toList = x :: cs := by
    cases c <;> exact ⟨_, _, by simp only [SimpleSelector.text, String.toList_append]; rfl⟩
  rw [htext] at hbegins htail ⊢
  rw [List.tail_cons] at htail
  rw [List.cons_append, m.occurs_cons, m.occurs_settled htail, ← List.cons_append, hbegins]

/-- Conditions one after another are found one by one. -/
theorem occurs_compound {c : Compound} (hc : ∀ s ∈ c, Selector.IsCondition className s) {d : Char}
    (hd : Word.isWord d = false) (rest : List Char) :
    m.occurs (c.text.toList ++ d :: rest)
      = (c.any (fun s => m.begins s.text.toList) || m.occurs (d :: rest)) := by
  induction c with
  | nil => rfl
  | cons s c ih =>
    have htext : (Compound.text (s :: c)).toList = s.text.toList ++ (Compound.text c).toList := by
      simp [Compound.text]
    obtain ⟨e, tail, he, htail⟩ : ∃ e tail, Word.isWord e = false
        ∧ (Compound.text c).toList ++ d :: rest = e :: tail := by
      cases c with
      | nil => exact ⟨d, rest, hd, rfl⟩
      | cons s' c =>
        cases s' with
        | ofClass name =>
          exact ⟨'.', _, by decide, by simp [Compound.text, SimpleSelector.text]; rfl⟩
        | pseudo name =>
          exact ⟨':', _, by decide, by simp [Compound.text, SimpleSelector.text]; rfl⟩
    rw [htext, List.append_assoc, htail, m.occurs_condition hname (hc s List.mem_cons_self) he,
      ← htail, ih fun s hs => hc s (List.mem_cons_of_mem _ hs), List.any_cons, Bool.or_assoc]

theorem occurs_selector {s : Selector} (hs : ∀ c ∈ s.conditions, Selector.IsCondition className c)
    {d : Char} (hd : Word.isWord d = false) (rest : List Char) :
    m.occurs (s.text.toList ++ d :: rest)
      = (s.conditions.any (fun c => m.begins c.text.toList) || m.occurs (d :: rest)) := by
  obtain ⟨ancestor, element⟩ := s
  have helement : ∀ c ∈ element, Selector.IsCondition className c :=
    fun c hc => hs c (List.mem_append_right _ hc)
  cases ancestor with
  | none => exact m.occurs_compound hname helement hd rest
  | some a =>
    have hancestor : ∀ c ∈ a, Selector.IsCondition className c :=
      fun c hc => hs c (List.mem_append_left _ hc)
    have htext : (Selector.text ⟨some a, element⟩).toList ++ d :: rest
        = (Compound.text a).toList ++ ' ' :: ((Compound.text element).toList ++ d :: rest) := by
      simp [Selector.text]
    have hsettled : Settled [' '] := settled_of_notMem (by decide) (by decide)
    have hspace := m.occurs_settled hsettled ((Compound.text element).toList ++ d :: rest)
    rw [List.singleton_append] at hspace
    rw [htext, m.occurs_compound hname hancestor (by decide), hspace,
      m.occurs_compound hname helement hd, Selector.conditions, Option.getD_some, List.any_append,
      Bool.or_assoc]

/-- The conditions of a list of selectors are found, and those of no others. -/
theorem occurs_selectors {selectors : List Selector}
    (hs : ∀ s ∈ selectors, ∀ c ∈ s.conditions, Selector.IsCondition className c)
    (rest : List Char) :
    m.occurs ((", ".intercalate (selectors.map Selector.text)).toList ++ ' ' :: rest)
      = (selectors.any (fun s => s.conditions.any fun c => m.begins c.text.toList)
        || m.occurs (' ' :: rest)) := by
  induction selectors with
  | nil => rfl
  | cons s selectors ih =>
    have hfirst := hs s List.mem_cons_self
    cases selectors with
    | nil =>
      simp only [List.map_cons, List.map_nil, String.intercalate_singleton, List.any_cons,
        List.any_nil, Bool.or_false]
      exact m.occurs_selector hname hfirst (by decide) rest
    | cons s' selectors =>
      have hsettled : Settled [',', ' '] := settled_of_notMem (by decide) (by decide)
      have hcomma := m.occurs_settled hsettled
        ((", ".intercalate ((s' :: selectors).map Selector.text)).toList ++ ' ' :: rest)
      have htext : (", ".intercalate ((s :: s' :: selectors).map Selector.text)).toList
            ++ ' ' :: rest
          = s.text.toList ++ ',' :: (' ' :: ((", ".intercalate
            ((s' :: selectors).map Selector.text)).toList ++ ' ' :: rest)) := by
        simp [String.intercalate_cons_cons]
      rw [htext, m.occurs_selector hname hfirst (by decide), List.any_cons, Bool.or_assoc,
        ← ih fun s hs' => hs s (List.mem_cons_of_mem _ hs')]
      exact congrArg _ hcomma

/-- In a rule a mark is found exactly if it is one of the conditions of its selectors. -/
theorem occurs_bodyOf {selectors : List Selector}
    (hs : ∀ s ∈ selectors, ∀ c ∈ s.conditions, Selector.IsCondition className c)
    {property value : String} (hproperty : ':' ∉ property.toList ∧ '.' ∉ property.toList)
    (hvalue : IsQuiet value.toList) (rest : List Char) :
    m.occurs ((bodyOf selectors property value).toList ++ rest)
      = ((selectors.any fun s => s.conditions.any fun c => m.begins c.text.toList)
        || m.occurs rest) := by
  have hbody : (bodyOf selectors property value).toList ++ rest
      = (", ".intercalate (selectors.map Selector.text)).toList ++ (" \x7b ".toList
        ++ (property.toList ++ (": ".toList ++ (value.toList ++ " \x7d".toList))) ++ rest) := by
    simp [bodyOf]
  have hdeclaration := m.occurs_settled (settled_declaration hproperty hvalue) rest
  rw [hbody]
  exact (m.occurs_selectors hname hs _).trans (congrArg _ hdeclaration)

end Mark

def pseudoNames : List String := ["hover", "focus", "active", "disabled", "read-only"]

/-- A pseudo-class with a name, or with one that goes on after a dash. -/
def pseudoMark (name : String) (h : name ∈ pseudoNames) : Mark where
  begins cs :=
    match Text.after? (':' :: name.toList) cs with
    | some rest => !rest.head?.any Word.isWord
    | none => false
  occurs := hasWord (':' :: name.toList)
  occurs_nil := rfl
  occurs_cons _ _ := rfl
  sharp c cs hbegins := by
    split at hbegins
    · next rest hrest =>
      have hname : ∀ name ∈ pseudoNames, ∃ d tail, name.toList = d :: tail ∧ ¬Calm ':' d := by
        simp only [pseudoNames, List.forall_mem_cons]
        refine ⟨⟨_, _, rfl, ?_⟩, ⟨_, _, rfl, ?_⟩, ⟨_, _, rfl, ?_⟩, ⟨_, _, rfl, ?_⟩, ⟨_, _, rfl, ?_⟩,
          List.forall_mem_nil _⟩ <;> exact fun h => absurd (h.1 rfl) (by decide)
      obtain ⟨d, tail, hd, hcalm⟩ := hname name h
      rw [Text.after?_eq_some, hd] at hrest
      obtain ⟨rfl, rfl⟩ := List.cons.inj hrest
      exact ⟨d, tail ++ rest, rfl, hcalm⟩
    · cases hbegins
  closed c hc d rest hd := by
    have hapart : ∀ name ∈ pseudoNames, ∀ c ∈ Selector.stateConditions,
        c.text.toList = ':' :: name.toList ∨ ¬c.text.toList <+: ':' :: name.toList := by decide
    rw [Text.after?_append (hapart name h c hc)]
    cases Text.after? (':' :: name.toList) c.text.toList with
    | none => rfl
    | some tail => cases tail <;> simp [hd]

/-- A class of a dash and a letter. -/
def forcedMark : Mark where
  begins cs :=
    match cs with
    | '.' :: '-' :: letter :: rest =>
      'a' ≤ letter && letter ≤ 'z' && !rest.head?.any Word.isWord
    | _ => false
  occurs := hasForcedClass
  occurs_nil := rfl
  occurs_cons _ _ := rfl
  sharp c cs hbegins := by
    split at hbegins
    · next heq =>
      obtain ⟨rfl, rfl⟩ := List.cons.inj heq
      exact ⟨_, _, rfl, fun h => h.2 rfl rfl⟩
    · cases hbegins
  closed c hc d rest hd := by
    have hlong : ∀ c ∈ Selector.stateConditions, 3 ≤ c.text.toList.length := by decide
    obtain ⟨x, y, z, tail, htext⟩ : ∃ x y z tail, c.text.toList = x :: y :: z :: tail := by
      match h : c.text.toList, hlong c hc with
      | x :: y :: z :: tail, _ => exact ⟨x, y, z, tail, rfl⟩
    rw [htext]
    by_cases hx : x = '.'
    · by_cases hy : y = '-'
      · subst hx hy
        cases tail <;> simp [hd]
      · simp [hy]
    · simp [hx]

def Mark.or (m m' : Mark) : Mark where
  begins cs := m.begins cs || m'.begins cs
  occurs cs := m.occurs cs || m'.occurs cs
  occurs_nil := by rw [m.occurs_nil, m'.occurs_nil, Bool.or_false]
  occurs_cons c cs := by
    rw [m.occurs_cons, m'.occurs_cons]
    ac_rfl
  sharp c cs h := (Bool.or_eq_true _ _ ▸ h).elim (m.sharp c cs) (m'.sharp c cs)
  closed c hc d rest hd := by rw [m.closed c hc d rest hd, m'.closed c hc d rest hd]

/-- All that tells a rule in a state. -/
def gatedMark : Mark :=
  (pseudoMark "hover" (by decide)).or ((pseudoMark "focus" (by decide)).or
    ((pseudoMark "active" (by decide)).or ((pseudoMark "disabled" (by decide)).or
      ((pseudoMark "read-only" (by decide)).or forcedMark))))

theorem isGated_eq_occurs (body : String) : isGated body = gatedMark.occurs body.toList := by
  simp [isGated, hasPseudo, gatedMark, Mark.or, pseudoMark, forcedMark, Bool.or_assoc]

theorem hasPseudo_eq_occurs {name : String} (h : name ∈ pseudoNames) (body : String) :
    hasPseudo [name] body = (pseudoMark name h).occurs body.toList := by
  simp [hasPseudo, pseudoMark]

/-- Searching a rule in the query of a width is searching its body. -/
theorem settled_query (width : Int) :
    Settled ("@media ".toList ++ (MediaQueries.atLeast width).toList ++ " \x7b ".toList) := by
  have hquery : "@media ".toList ++ (MediaQueries.atLeast width).toList ++ " \x7b ".toList
      = "@media (min-width".toList ++ (": ".toList ++ ((Number.intText width).toList
        ++ "px) \x7b ".toList)) := by
    simp [MediaQueries.atLeast, MediaQueries.fromWidth]
  rw [hquery]
  exact (settled_of_notMem (by decide) (by decide)).append (settled_colon.append
    ((settled_of_notMem (Number.notMem_intText (by decide) (by decide) width)
      (Number.notMem_intText (by decide) (by decide) width)).append
        (settled_of_notMem (by decide) (by decide))))

/-- A rule with the selectors of a class in the states of a key. -/
structure InStates (force : Bool) (className : String) (d : StyleKey.Decoded) (p : StyleProperty)
    (states : List ActiveState) (selectors : List Selector) (value : String) (r : Rule) : Prop where
  named : states.map (fun s => s.state.name) = d.stateTokens
  made : Selector.ofStates className p.gate d.isRef force states = .ok selectors
  body : r.body = bodyOf selectors p.css value
  quiet : IsQuiet value.toList
  line : '\n' ∉ value.toList
  media : ∀ query ∈ r.media, ∃ width, query = MediaQueries.atLeast width

theorem isQuiet_hex {color : Value} {hex : String} (h : Color.hexOfHsla color = .ok hex) :
    IsQuiet hex.toList ∧ '\n' ∉ hex.toList := by
  have hhex := Color.isHex_of_hexOfHsla h
  exact ⟨.of_noPoint (hhex.notMem (by decide)) (hhex.notMem (by decide)), hhex.notMem (by decide)⟩

theorem isQuiet_intercalate {parts : List String}
    (h : ∀ s ∈ parts, IsQuiet s.toList ∧ '\n' ∉ s.toList) :
    IsQuiet (" ".intercalate parts).toList ∧ '\n' ∉ (" ".intercalate parts).toList := by
  induction parts with
  | nil => exact ⟨.of_noPoint (by decide) (by decide), by decide⟩
  | cons s parts ih =>
    obtain ⟨hquiet, hline⟩ := h s List.mem_cons_self
    obtain ⟨hquiet', hline'⟩ := ih fun s hs => h s (List.mem_cons_of_mem _ hs)
    cases parts with
    | nil => simpa using ⟨hquiet, hline⟩
    | cons s' parts =>
      have hspace : IsQuiet (s.toList ++ [' ']) :=
        hquiet.append (.of_noPoint (by decide) (by decide)) (.inr (by simp))
      rw [String.intercalate_cons_cons, String.toList_append, String.toList_append]
      refine ⟨hspace.append hquiet' (.inl (by simp)), ?_⟩
      simpa using ⟨hline, by simpa using hline'⟩

def IsInStates (force : Bool) (className key : String) (d : StyleKey.Decoded) (p : StyleProperty)
    (r : Rule) : Prop :=
  StyleKey.decode key = .ok d ∧ d.property = p.name
    ∧ ∃ states selectors value, InStates force className d p states selectors value r

section Families

variable {o : RuleOptions} {table : BreakpointTable} {key className : String} {r : Rule}

theorem line_notMem_pixels (x : Float) : '\n' ∉ (pixels x).toList :=
  Length.notMem_px (by decide) (by decide) (by decide) _

theorem exists_isInStates_ofRadius (ho : o.queries = table.queries)
    (h : ofRadius o key className = .ok r) :
    ∃ d, IsInStates o.force className key d (.scale .borderRadius) r := by
  obtain ⟨d, x, states, selectors, hd, hname, -, hstates, hs, hmedia, hbody⟩ := ofRadius_ok h
  exact ⟨d, hd, hname, states, selectors, pixels x, ActiveState.map_name_of_ofTokens hstates, hs,
    hbody, isQuiet_pixels x, line_notMem_pixels x, media_of_mediaQuery (ho ▸ hmedia)⟩

theorem exists_isInStates_ofShadow {force : Bool} (h : ofShadow force key className = .ok r) :
    ∃ d, IsInStates force className key d .shadow r := by
  simp only [ofShadow, bind_eq_ok, pure_eq_ok, given_eq_ok, Prod.exists] at h
  obtain ⟨state, value, hparts, states, hstates, x, y, blur, _, -, color, hcolor, selectors, hs,
    rfl⟩ := h
  obtain ⟨d, hd, hname, htokens, hisRef, -⟩ := decode_of_shadowParts? hparts hstates
  obtain ⟨_, -, hhex⟩ := colorOfJson_eq_ok.1 hcolor
  have hpixels : ∀ x, IsQuiet (pixels x).toList ∧ '\n' ∉ (pixels x).toList :=
    fun x => ⟨isQuiet_pixels x, line_notMem_pixels x⟩
  have hvalue : ∀ s ∈ [pixels x, pixels y, pixels blur, color],
      IsQuiet s.toList ∧ '\n' ∉ s.toList := by
    simpa [hpixels] using isQuiet_hex hhex
  replace hvalue := isQuiet_intercalate hvalue
  exact ⟨d, hd, hname, states, selectors, _,
    (ActiveState.map_name_of_ofTokens hstates).trans htokens.symm, hisRef ▸ hs, rfl, hvalue.1,
    hvalue.2, by simp⟩

theorem exists_isInStates_ofColor {force : Bool} (h : ofColor force key className = .ok r) :
    ∃ d p, IsInStates force className key d (.color p) r := by
  simp only [ofColor, bind_eq_ok, pure_eq_ok, mapError_eq_ok, given_eq_ok] at h
  obtain ⟨_, -, d, hd, p, hp, color, hcolor, states, hstates, selectors, hs, rfl⟩ := h
  have hname : p.name = d.property := by simpa using List.find?_some hp
  obtain ⟨_, -, hhex⟩ := colorOfJson_eq_ok.1 hcolor
  exact ⟨d, p, hd, hname.symm, states, selectors, color, ActiveState.map_name_of_ofTokens hstates,
    hs, rfl, (isQuiet_hex hhex).1, (isQuiet_hex hhex).2, by simp⟩

end Families

/-- The rank of states: pressing over hovering over focus. -/
def stateRank (tokens : List String) : Nat :=
  if "pressed" ∈ tokens then 3
  else if "hover" ∈ tokens then 2
  else if "focus" ∈ tokens then 1
  else 0

namespace InStates

variable {force : Bool} {className : String} {d : StyleKey.Decoded} {p : StyleProperty}
  {states : List ActiveState} {selectors : List Selector} {value : String} {r : Rule}
  (h : InStates force className d p states selectors value r)
include h

theorem isCondition {s : Selector} (hs : s ∈ selectors) {c : SimpleSelector}
    (hc : c ∈ s.conditions) : Selector.IsCondition className c := by
  exact Selector.isCondition_of_ofStates p.isGate h.made hs hc

variable (hname : ClassName.IsWord className.toList)
include hname

theorem occurs_body_append (m : Mark) (rest : List Char) : m.occurs (r.body.toList ++ rest)
    = ((selectors.any fun s => s.conditions.any fun c => m.begins c.text.toList)
      || m.occurs rest) := by
  obtain ⟨hcolon, hpoint, -⟩ := p.notMem_css
  rw [h.body]
  exact m.occurs_bodyOf hname (fun s hs c hc => h.isCondition hs hc) ⟨hcolon, hpoint⟩ h.quiet rest

theorem occurs_body (m : Mark) : m.occurs r.body.toList
    = selectors.any fun s => s.conditions.any fun c => m.begins c.text.toList := by
  have hbody := h.occurs_body_append hname m []
  rwa [List.append_nil, m.occurs_nil, Bool.or_false] at hbody

/-- The media query has no marks. -/
theorem occurs_text (m : Mark) : m.occurs r.text.toList = m.occurs r.body.toList := by
  rw [text]
  split
  · next query hquery =>
    obtain ⟨width, rfl⟩ := h.media query hquery
    have htext : ("@media " ++ MediaQueries.atLeast width ++ " \x7b " ++ r.body ++ " \x7d").toList
        = ("@media ".toList ++ (MediaQueries.atLeast width).toList ++ " \x7b ".toList)
          ++ (r.body.toList ++ " \x7d".toList) := by
      simp
    have hend : Settled " \x7d".toList := settled_of_notMem (by decide) (by decide)
    have hclose := m.occurs_settled hend []
    rw [List.append_nil, m.occurs_nil] at hclose
    rw [htext, m.occurs_settled (settled_query width), h.occurs_body_append hname, hclose,
      Bool.or_false, h.occurs_body hname]
  · rfl

/-- A rule is found to be one of a state exactly if one of its selectors is not that of the bare
class. -/
theorem isGated_iff : isGated r.body = true ↔ ∃ s ∈ selectors, s ∉ bare className := by
  have hstate : ∀ c ∈ Selector.stateConditions, gatedMark.begins c.text.toList = true := by decide
  rw [isGated_eq_occurs, h.occurs_body hname, List.any_eq_true]
  refine exists_congr fun s => and_congr_right fun hs => ?_
  rw [← Selector.exists_beyond_iff hname p.isGate h.made hs, List.any_eq_true]
  refine exists_congr fun c => and_congr_right fun hc => ?_
  constructor
  · rintro hbegins rfl
    rw [gatedMark.begins_ofClass hname] at hbegins
    cases hbegins
  · intro hne
    exact hstate c ((h.isCondition hs hc).resolve_left hne)

/-- A pseudo-class is found exactly if the key names the state. -/
theorem hasPseudo_iff {name pseudo : String} (hmem : name ∈ pseudoNames) {state : ActiveState}
    (hpseudo : state.pseudo? = some pseudo)
    (hbegins : ∀ c ∈ Selector.stateConditions,
      (pseudoMark name hmem).begins c.text.toList = true ↔ c = .pseudo pseudo) :
    hasPseudo [name] r.body = true ↔ state.state.name ∈ d.stateTokens := by
  have hselectors : (pseudoMark name hmem).occurs r.body.toList = true
      ↔ ∃ s ∈ selectors, .pseudo pseudo ∈ s.conditions := by
    simp only [h.occurs_body hname, List.any_eq_true]
    refine exists_congr fun s => and_congr_right fun hs => ?_
    constructor
    · rintro ⟨c, hc, hmark⟩
      rcases h.isCondition hs hc with rfl | hstate
      · rw [Mark.begins_ofClass _ hname] at hmark
        cases hmark
      · rwa [← (hbegins c hstate).1 hmark]
    · intro hc
      have hstate := (h.isCondition hs hc).resolve_left SimpleSelector.noConfusion
      exact ⟨_, hc, (hbegins _ hstate).2 rfl⟩
  rw [hasPseudo_eq_occurs hmem, hselectors, Selector.exists_pseudo_iff h.made, ← h.named,
    List.mem_map]
  exact exists_congr fun s => and_congr_right fun _ => s.pseudo?_eq_iff hpseudo

/-- The rank of a rule is that of the states of its key. -/
theorem precedence_eq : precedence r.body = stateRank d.stateTokens := by
  have hpressed : hasPseudo ["active"] r.body = true ↔ "pressed" ∈ d.stateTokens :=
    h.hasPseudo_iff hname (by decide) (rfl : ActiveState.pressed.pseudo? = _) (by decide)
  have hhover : hasPseudo ["hover"] r.body = true ↔ "hover" ∈ d.stateTokens :=
    h.hasPseudo_iff hname (by decide) (rfl : ActiveState.hover.pseudo? = _) (by decide)
  have hfocus : hasPseudo ["focus"] r.body = true ↔ "focus" ∈ d.stateTokens :=
    h.hasPseudo_iff hname (by decide) (rfl : ActiveState.focus.pseudo? = _) (by decide)
  simp only [precedence, stateRank, hpressed, hhover, hfocus]

end InStates

end Rule
end AtomicCss

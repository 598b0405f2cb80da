import AtomicCss.Proofs.RoundTrip
import AtomicCss.Proofs.Families

/-!
# Rules and the coordinates of their keys

A family is chosen by how a key begins, and some families read their keys in a way of their own.
Still the rule of a key has the property and the states that are read off the key. It has the media
query of the key's breakpoint as well, except for colors, whose breakpoints are lost.
-/
namespace AtomicCss

namespace Text

theorem splitOn_ne_nil (sep : Char) (s : List Char) : splitOn sep s ≠ [] := by
  cases s with
  | nil => simp [splitOn]
  | cons c s =>
    rw [splitOn]
    split
    · simp
    · split <;> simp

/-- A character other than the separator stands in one of the pieces. -/
theorem exists_mem_splitOn {sep c : Char} {s : List Char} (hc : c ∈ s) (hne : c ≠ sep) :
    ∃ piece ∈ splitOn sep s, c ∈ piece := by
  induction s with
  | nil => cases hc
  | cons d s ih =>
    obtain ⟨first, pieces, hpieces⟩ := List.exists_cons_of_ne_nil (splitOn_ne_nil sep s)
    rw [splitOn, hpieces]
    rw [hpieces] at ih
    by_cases hd : d = sep
    · subst hd
      obtain ⟨piece, hpiece, hmem⟩ := ih ((List.mem_cons.1 hc).resolve_left hne)
      exact ⟨piece, by simpa using .inr (List.mem_cons.1 hpiece), hmem⟩
    · simp only [hd, if_false]
      rcases List.mem_cons.1 hc with rfl | hc
      · exact ⟨c :: first, List.mem_cons_self, List.mem_cons_self⟩
      · obtain ⟨piece, hpiece, hmem⟩ := ih hc
        rcases List.mem_cons.1 hpiece with rfl | hpiece
        · exact ⟨d :: piece, List.mem_cons_self, List.mem_cons_of_mem d hmem⟩
        · exact ⟨piece, List.mem_cons_of_mem _ hpiece, hmem⟩

end Text

namespace ActiveState

theorem name_of_ofName? {token : String} {s : ActiveState} (h : ofName? token = some s) :
    s.state.name = token := by
  simpa using List.find?_some h

theorem map_name_of_ofTokens {key family : String} {isRef : Bool} {tokens : List String}
    {states : List ActiveState} (h : ofTokens key family isRef tokens = .ok states) :
    states.map (fun s => s.state.name) = tokens := by
  rw [← List.map_id tokens]
  refine map_of_mapM_ok h fun token s hs => ?_
  split at hs
  · next s' hs' =>
    obtain rfl := Except.ok.inj hs
    exact name_of_ofName? hs'
  · cases hs

end ActiveState

namespace StyleKey

/-- Tokens that name states make up a state without an underscore. -/
theorem notMem_of_ofTokens {raw key family : String} {isRef : Bool} {states : List ActiveState}
    (h : ActiveState.ofTokens key family isRef (stateTokens raw) = .ok states) :
    '_' ∉ raw.toList := by
  intro hmem
  obtain ⟨piece, hpiece, hunderscore⟩ :=
    Text.exists_mem_splitOn hmem (by decide : '_' ≠ ':')
  have hname : ∀ s : ActiveState, '_' ∉ s.state.name.toList := by
    intro s
    cases s <;> decide
  have htoken : String.ofList piece ∈ stateTokens raw := by
    refine List.mem_filter.2 ⟨List.mem_map_of_mem hpiece, ?_⟩
    have hempty : String.ofList piece ≠ "" := by
      intro heq
      rw [← String.toList_ofList (l := piece), heq] at hunderscore
      cases hunderscore
    have hrest : String.ofList piece ≠ "rest" := by
      intro heq
      rw [← String.toList_ofList (l := piece), heq] at hunderscore
      exact absurd hunderscore (by decide)
    simp [hempty, hrest]
  rw [← ActiveState.map_name_of_ofTokens h] at htoken
  obtain ⟨s, -, hs⟩ := List.mem_map.1 htoken
  refine hname s ?_
  rw [hs, String.toList_ofList]
  exact hunderscore

end StyleKey

namespace Rule

variable {o : RuleOptions} {key className : String} {r : Rule}

theorem dropLast?_eq_some {last : Char} {cs front : List Char} :
    dropLast? last cs = some front ↔ cs = front ++ [last] := by
  rw [dropLast?]
  cases hcs : cs.reverse with
  | nil =>
    obtain rfl := List.reverse_eq_nil_iff.1 hcs
    simp
  | cons c rest =>
    obtain rfl : cs = rest.reverse ++ [c] := by
      rw [← List.reverse_reverse cs, hcs, List.reverse_cons]
    simp [and_comm]

/-- A shadow key begins with the property, then possibly its state, and then the value. -/
theorem eq_of_shadowHead? {cs state rest : List Char} (h : shadowHead? cs = some (state, rest)) :
    state = [] ∧ cs = "shadow".toList ++ ("__[".toList ++ rest)
      ∨ (∀ c ∈ state, Word.isWord c = true ∨ c = ':')
        ∧ cs = "shadow".toList ++ ("--".toList ++ (state ++ ("__[".toList ++ rest))) := by
  simp only [shadowHead?, Option.bind_eq_bind, Option.bind_eq_some_iff, Text.after?_eq_some] at h
  obtain ⟨after, rfl, h⟩ := h
  split at h
  · next rest' hrest =>
    cases h
    exact .inl ⟨rfl, by rw [Text.after?_eq_some.1 hrest]⟩
  · simp only [Option.bind_eq_some_iff, Text.after?_eq_some, dropLast?_eq_some] at h
    obtain ⟨word, rfl, _, hfront, state', rfl, rest', hrest, h⟩ := h
    obtain ⟨-, heq⟩ := Option.ite_none_left_eq_some.1 h
    cases heq
    have hword : (word.takeWhile fun c => Word.isWord c || c = ':')
        ++ (word.dropWhile fun c => Word.isWord c || c = ':') = word :=
      List.takeWhile_append_dropWhile
    rw [hfront, hrest] at hword
    refine .inr ⟨fun c hc => ?_, ?_⟩
    · have hmem : c ∈ word.takeWhile fun c => Word.isWord c || c = ':' := by
        rw [hfront]
        simp [hc]
      simpa using List.all_eq_true.1 List.all_takeWhile c hmem
    · rw [← hword]
      simp

/-- A shadow key whose states are known is read off as it is decoded. -/
theorem decode_of_shadowParts? {state : String} {value : List Char} {states : List ActiveState}
    (h : shadowParts? key = some (state, value))
    (hstates : ActiveState.ofTokens key "shadow" false (StyleKey.stateTokens state) = .ok states) :
    ∃ d, StyleKey.decode key = .ok d ∧ d.property = "shadow"
      ∧ d.stateTokens = StyleKey.stateTokens state ∧ d.isRef = false ∧ d.breakpoint = none := by
  obtain ⟨⟨front, rest⟩, hhead, hparts⟩ := Option.bind_eq_some_iff.1 h
  obtain ⟨body, -, hparts⟩ := Option.bind_eq_some_iff.1 hparts
  obtain ⟨-, heq⟩ := Option.ite_none_left_eq_some.1 hparts
  obtain ⟨rfl, rfl⟩ := Prod.mk.inj (Option.some.inj heq)
  have hshadow : StyleKey.IsPlain "shadow" := by decide
  rcases eq_of_shadowHead? hhead with ⟨rfl, hkey⟩ | ⟨hpart, hkey⟩
  · obtain rfl : key = "shadow" ++ ("__" ++ String.ofList ('[' :: rest)) := by
      rw [← String.toList_inj, hkey]
      simp
    have hnone : StyleKey.stateTokens (String.ofList []) = [] := by decide
    exact ⟨_, StyleKey.decode_stateless hshadow _, rfl, hnone.symm, rfl, rfl⟩
  · obtain rfl : key = "shadow" ++ ("--" ++ String.ofList front)
        ++ ("__" ++ String.ofList ('[' :: rest)) := by
      rw [← String.toList_inj, hkey]
      simp
    have hunderscore := StyleKey.notMem_of_ofTokens hstates
    have hplain : StyleKey.IsPlain (String.ofList front) := by
      rw [String.toList_ofList] at hunderscore
      intro c hc
      rw [String.toList_ofList] at hc
      have hmark : ∀ mark ∈ ['+', '-', '='], ¬(Word.isWord mark = true ∨ mark = ':') := by
        simp [Word.isWord]
      exact ⟨fun h => hunderscore (h ▸ hc), fun h => hmark _ (by simp) (h ▸ hpart c hc),
        fun h => hmark _ (by simp) (h ▸ hpart c hc), fun h => hmark _ (by simp) (h ▸ hpart c hc)⟩
    exact ⟨_, StyleKey.decode_inline hshadow hplain _, rfl, rfl, rfl, rfl⟩

end Rule

inductive StyleProperty
  | decoration (p : DecorationProperty)
  | scale (p : ScaleProperty)
  | color (p : ColorProperty)
  | shadow
  deriving DecidableEq

namespace StyleProperty

def all : List StyleProperty :=
  DecorationProperty.all.map decoration ++ ScaleProperty.all.map scale
    ++ ColorProperty.all.map color ++ [shadow]

def name : StyleProperty → String
  | decoration p => p.name
  | scale p => p.name
  | color p => p.name
  | shadow => "shadow"

def css : StyleProperty → String
  | decoration p => p.css
  | scale p => p.css
  | color p => p.css
  | shadow => "box-shadow"

/-- The class that switches a property on, if one does. -/
def gate : StyleProperty → Option String
  | shadow => some Selector.shadowGate
  | _ => none

theorem mem_all (p : StyleProperty) : p ∈ all := by
  cases p with
  | decoration p => cases p <;> decide
  | scale p => cases p <;> decide
  | color p => cases p <;> decide
  | shadow => decide

/-- No two properties have one name. -/
theorem name_injective : Function.Injective name := by
  have hall : ∀ p ∈ all, ∀ q ∈ all, p.name = q.name → p = q := by decide +kernel
  exact fun p q h => hall p (mem_all p) q (mem_all q) h

end StyleProperty

namespace Rule

/-- The selectors of a class in the states that a key names: of the bare class without any. -/
def SelectorsOf (d : StyleKey.Decoded) (className : String) (gate : Option String) (force : Bool)
    (selectors : List Selector) : Prop :=
  if d.stateTokens = [] then selectors = [⟨none, Selector.target className gate⟩]
  else ∃ states : List ActiveState, states.map (fun s => s.state.name) = d.stateTokens
    ∧ Selector.ofStates className gate d.isRef force states = .ok selectors

/-- A rule has the coordinates of a key: it sets the property in the states of the key. Its media
query is that of the breakpoint, unless this is one of a color. -/
structure HasCoordinates (o : RuleOptions) (className : String) (d : StyleKey.Decoded)
    (p : StyleProperty) (r : Rule) : Prop where
  property : d.property = p.name
  body : ∃ selectors value, SelectorsOf d className p.gate o.force selectors
    ∧ r.body = bodyOf selectors p.css value
  media : mediaQuery o.queries d.breakpoint = .ok r.media
    ↔ ∀ c, p = .color c → Location.known d.breakpoint = none
  media_color : ∀ c, p = .color c → r.media = none

theorem selectorsOf_of_ofStates {d : StyleKey.Decoded} {gate : Option String} {force : Bool}
    {states : List ActiveState} {selectors : List Selector}
    (hstates : states.map (fun s => s.state.name) = d.stateTokens)
    (h : Selector.ofStates className gate d.isRef force states = .ok selectors) :
    SelectorsOf d className gate force selectors := by
  rw [SelectorsOf]
  split
  · next hnone =>
    obtain rfl : states = [] := by simpa [hnone] using hstates
    cases hisRef : d.isRef with
    | true =>
      rw [hisRef] at h
      cases h
    | false =>
      rw [hisRef] at h
      exact (Except.ok.inj h).symm
  · exact ⟨states, hstates, h⟩

theorem selectorsOf_bare {d : StyleKey.Decoded} {force : Bool} (h : d.stateTokens = []) :
    SelectorsOf d className none force (bare className) := by
  rw [SelectorsOf, if_pos h]
  rfl

/-- A rule of no color with the query of its key's breakpoint. -/
theorem HasCoordinates.of_media {d : StyleKey.Decoded} {p : StyleProperty}
    (hp : ∀ c, p ≠ .color c) (property : d.property = p.name)
    (body : ∃ selectors value, SelectorsOf d className p.gate o.force selectors
      ∧ r.body = bodyOf selectors p.css value)
    (media : mediaQuery o.queries d.breakpoint = .ok r.media) :
    HasCoordinates o className d p r :=
  ⟨property, body, ⟨fun _ c hc => absurd hc (hp c), fun _ => media⟩, fun c hc => absurd hc (hp c)⟩

theorem exists_hasCoordinates_ofDecoration {p : DecorationProperty}
    (h : ofDecoration p key className = .ok r) :
    ∃ d, StyleKey.decode key = .ok d ∧ HasCoordinates o className d (.decoration p) r := by
  simp only [ofDecoration, decorationValue, bind_eq_ok, require_eq_ok, pure_eq_ok, beq_iff_eq,
    Bool.and_eq_true] at h
  obtain ⟨_, ⟨_, hproperty, _, ⟨hoccurs, -⟩, -⟩, css, -, rfl⟩ := h
  have hplain : StyleKey.IsPlain p.name := by cases p <;> decide
  obtain ⟨⟨front, value⟩, hcut⟩ := Option.isSome_iff_exists.1 hoccurs
  have hstring : StyleKey.cutString "__" key = some (String.ofList front, String.ofList value) :=
    congrArg _ hcut
  rw [hstring] at hproperty
  obtain rfl : key = p.name ++ ("__" ++ String.ofList value) := by
    rw [← hproperty, ← String.toList_inj, Text.eq_append_of_cut hcut]
    simp
  exact ⟨_, StyleKey.decode_stateless hplain _,
    .of_media (fun _ => StyleProperty.noConfusion) rfl ⟨_, css, selectorsOf_bare rfl, rfl⟩ rfl⟩

theorem stateTokens_of_ofScale {queries : MediaQueries} {d : StyleKey.Decoded}
    (h : ofScale queries key className = .ok r) (hd : StyleKey.decode key = .ok d) :
    d.stateTokens = [] := by
  simp only [ofScale, bind_eq_ok, mapError_eq_ok, require_eq_ok, Bool.and_eq_true] at h
  obtain ⟨_, -, d', hd', _, -, _, ⟨htokens, -⟩, -⟩ := h
  obtain rfl := Except.ok.inj (hd.symm.trans hd')
  exact List.isEmpty_iff.1 htokens

theorem exists_hasCoordinates_ofScale (h : ofScale o.queries key className = .ok r) :
    ∃ d p, StyleKey.decode key = .ok d ∧ HasCoordinates o className d (.scale p) r := by
  obtain ⟨d, p, x, css, hd, hp, -, -, -, hmedia, hbody⟩ := ofScale_ok h
  have hname : p.name = d.property := by
    simpa using List.find?_some (Option.filter_eq_some_iff.1 hp).1
  have hselectors : SelectorsOf d className none o.force (bare className) :=
    selectorsOf_bare (stateTokens_of_ofScale h hd)
  exact ⟨d, p, hd, .of_media (fun _ => StyleProperty.noConfusion) hname.symm
    ⟨_, css, hselectors, hbody⟩ hmedia⟩

theorem exists_hasCoordinates_ofRadius (h : ofRadius o key className = .ok r) :
    ∃ d, StyleKey.decode key = .ok d ∧ HasCoordinates o className d (.scale .borderRadius) r := by
  obtain ⟨d, x, states, selectors, hd, hname, -, hstates, hs, hmedia, hbody⟩ := ofRadius_ok h
  have hselectors := selectorsOf_of_ofStates (ActiveState.map_name_of_ofTokens hstates) hs
  exact ⟨d, hd, .of_media (fun _ => StyleProperty.noConfusion) hname
    ⟨selectors, _, hselectors, hbody⟩ hmedia⟩

theorem exists_hasCoordinates_ofShadow (h : ofShadow o.force key className = .ok r) :
    ∃ d, StyleKey.decode key = .ok d ∧ HasCoordinates o className d .shadow r := by
  simp only [ofShadow, bind_eq_ok, pure_eq_ok, given_eq_ok, Prod.exists] at h
  obtain ⟨state, value, hparts, states, hstates, _, _, _, _, -, _, -, selectors, hs, rfl⟩ := h
  obtain ⟨d, hd, hname, htokens, hisRef, hbreakpoint⟩ := decode_of_shadowParts? hparts hstates
  have hselectors : SelectorsOf d className (some Selector.shadowGate) o.force selectors :=
    selectorsOf_of_ofStates ((ActiveState.map_name_of_ofTokens hstates).trans htokens.symm)
      (hisRef ▸ hs)
  have hmedia : mediaQuery o.queries d.breakpoint = .ok none := by
    rw [hbreakpoint]
    rfl
  exact ⟨d, hd, .of_media (fun _ => StyleProperty.noConfusion) hname
    ⟨selectors, _, hselectors, rfl⟩ hmedia⟩

/-- The query of a color's breakpoint is not asked for. -/
theorem exists_hasCoordinates_ofColor (h : ofColor o.force key className = .ok r) :
    ∃ d p, StyleKey.decode key = .ok d ∧ HasCoordinates o className d (.color p) r := by
  simp only [ofColor, bind_eq_ok, pure_eq_ok, mapError_eq_ok, given_eq_ok] at h
  obtain ⟨_, -, d, hd, p, hp, color, -, states, hstates, selectors, hs, rfl⟩ := h
  have hname : p.name = d.property := by simpa using List.find?_some hp
  have hselectors := selectorsOf_of_ofStates (ActiveState.map_name_of_ofTokens hstates) hs
  refine ⟨d, p, hd, hname.symm, ⟨selectors, color, hselectors, rfl⟩, ?_, fun _ _ => rfl⟩
  have hknown : mediaQuery o.queries d.breakpoint = .ok none
      ↔ Location.known d.breakpoint = none := by
    rw [mediaQuery]
    cases Location.known d.breakpoint with
    | none => simp
    | some token =>
      rcases h : o.queries.get? token with _ | _ | query <;> simp [h]
  rw [hknown]
  exact ⟨fun h _ _ => h, fun h => h p rfl⟩

/-- Every rule has the coordinates of its key, for one property. -/
theorem exists_hasCoordinates (h : ofKey o key className = .ok r) :
    ∃ d, StyleKey.decode key = .ok d ∧ ∃! p, HasCoordinates o className d p r := by
  suffices hexists : ∃ d p, StyleKey.decode key = .ok d ∧ HasCoordinates o className d p r by
    obtain ⟨d, p, hd, hp⟩ := hexists
    exact ⟨d, hd, p, hp, fun q hq =>
      StyleProperty.name_injective (hq.property.symm.trans hp.property)⟩
  refine ofKey_cases h (fun p h => ?_) (fun h => ?_) (fun h => ?_) (fun h => ?_) fun h => ?_
  · obtain ⟨d, hd⟩ := exists_hasCoordinates_ofDecoration (o := o) h
    exact ⟨d, _, hd⟩
  · obtain ⟨d, hd⟩ := exists_hasCoordinates_ofShadow h
    exact ⟨d, _, hd⟩
  · obtain ⟨d, hd⟩ := exists_hasCoordinates_ofRadius h
    exact ⟨d, _, hd⟩
  · obtain ⟨d, p, hd⟩ := exists_hasCoordinates_ofScale h
    exact ⟨d, _, hd⟩
  · obtain ⟨d, p, hd⟩ := exists_hasCoordinates_ofColor h
    exact ⟨d, _, hd⟩

/-- A reference to a radius under a state of the selected scope, from a breakpoint on. -/
theorem exists_hasCoordinates_radius :
    ∃ r, ofKey { force := true } "borderRadius==selected:hover++s:md:1::bp:md:1__4" "a" = .ok r
      ∧ r.text = "@media (min-width: 568px) \x7b .-a:hover.-s .a, .-a.-s.-h .a "
        ++ "\x7b border-radius: 4px \x7d \x7d"
      ∧ ∃ d, StyleKey.decode "borderRadius==selected:hover++s:md:1::bp:md:1__4" = .ok d
        ∧ ∃! p, HasCoordinates { force := true } "a" d p r := by
  have hr : ((ofKey { force := true } "borderRadius==selected:hover++s:md:1::bp:md:1__4"
      "a").toOption.map fun r => r.text)
        = some ("@media (min-width: 568px) \x7b .-a:hover.-s .a, .-a.-s.-h .a "
          ++ "\x7b border-radius: 4px \x7d \x7d") := by decide +kernel
  obtain ⟨r, hr, htext⟩ := exists_of_toOption_map hr
  exact ⟨r, hr, htext, exists_hasCoordinates hr⟩

/-- The breakpoint of a color has a media query, but the rule of the color is under none. -/
theorem color_loses_breakpoint :
    ∃ r d, ofKey { force := false } "boxColor++s:md:1::bp:md:1__[0,0,0,1]" "a" = .ok r
      ∧ StyleKey.decode "boxColor++s:md:1::bp:md:1__[0,0,0,1]" = .ok d
      ∧ mediaQuery (BreakpointTable.queries standardBreakpoints) d.breakpoint
        = .ok (some "(min-width: 568px)")
      ∧ r.media = none := by
  have hr : ((ofKey { force := false } "boxColor++s:md:1::bp:md:1__[0,0,0,1]" "a").toOption.map
      fun r => r.media) = some none := by decide +kernel
  have hd : ((StyleKey.decode "boxColor++s:md:1::bp:md:1__[0,0,0,1]").toOption.map
      fun d => d.breakpoint) = some (some "bp:md:1") := by decide +kernel
  obtain ⟨r, hr, hmedia⟩ := exists_of_toOption_map hr
  obtain ⟨d, hd, hbreakpoint⟩ := exists_of_toOption_map hd
  refine ⟨r, d, hr, hd, ?_, hmedia⟩
  rw [hbreakpoint]
  rfl

end Rule
end AtomicCss

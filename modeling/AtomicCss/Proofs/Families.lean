import AtomicCss.Proofs.Results
import AtomicCss.Proofs.Styled

/-!
# The rules of each family

What the rule of a key is, family by family, if the key has one. Whatever the family, the rule is on
the class of the key.
-/
namespace AtomicCss

theorem require_eq_ok {holds : Bool} {e : RuleError} {u : Unit} :
    require holds e = .ok u ↔ holds = true := by
  cases holds <;> simp [require]

theorem given_eq_ok {α : Type} {a? : Option α} {e : RuleError} {a : α} :
    given a? e = .ok a ↔ a? = some a := by
  cases a? <;> simp [given]

theorem requireSize_eq_ok {allowed : String → Bool} {size? : Option String} {key : String}
    {u : Unit} :
    requireSize allowed size? key = .ok u ↔ ∀ size, size? = some size → allowed size = true := by
  cases size? <;> simp [requireSize, require_eq_ok]

namespace Rule

variable {o : RuleOptions} {key className : String} {r : Rule}

theorem ofDecoration_ok {p : DecorationProperty} (h : ofDecoration p key className = .ok r) :
    ∃ css, r = ⟨bodyOf (bare className) p.css css, none⟩ := by
  simp only [ofDecoration, bind_eq_ok, pure_eq_ok] at h
  obtain ⟨_, -, css, -, rfl⟩ := h
  exact ⟨css, rfl⟩

theorem ofScale_ok {queries : MediaQueries} (h : ofScale queries key className = .ok r) :
    ∃ k p x css, StyleKey.decode key = .ok k ∧ scaleProperty? k.property = some p
      ∧ (∀ size, k.size = some size → size ∈ elementSizes)
      ∧ Numeral.float? k.value.toList = some x ∧ scaleLength p x = .ok css
      ∧ mediaQuery queries k.breakpoint = .ok r.media
      ∧ r.body = bodyOf (bare className) p.css css := by
  simp only [ofScale, bind_eq_ok, pure_eq_ok, mapError_eq_ok, require_eq_ok, given_eq_ok,
    requireSize_eq_ok, Option.filter_eq_some_iff, List.contains_iff_mem] at h
  obtain ⟨_, -, k, hk, p, hp, _, -, _, hsize, _, -, x, ⟨hx, -⟩, css, hcss, media, hmedia, rfl⟩ := h
  exact ⟨k, p, x, css, hk, hp, hsize, hx, hcss, hmedia, rfl⟩

theorem ofRadius_ok (h : ofRadius o key className = .ok r) :
    ∃ k x states selectors, StyleKey.decode key = .ok k
      ∧ k.property = ScaleProperty.borderRadius.name ∧ radius? k.value = some x
      ∧ ActiveState.ofTokens key "style" k.isRef k.stateTokens = .ok states
      ∧ Selector.ofStates className none k.isRef o.force states = .ok selectors
      ∧ mediaQuery o.queries k.breakpoint = .ok r.media
      ∧ r.body = bodyOf selectors ScaleProperty.borderRadius.css (pixels x) := by
  simp only [ofRadius, bind_eq_ok, pure_eq_ok, mapError_eq_ok, require_eq_ok, given_eq_ok,
    requireSize_eq_ok, beq_iff_eq] at h
  obtain ⟨k, hk, _, hp, x, hx, _, -, states, hstates, selectors, hs, media, hmedia, rfl⟩ := h
  exact ⟨k, x, states, selectors, hk, hp, hx, hstates, hs, hmedia, rfl⟩

theorem ofShadow_ok {force : Bool} (h : ofShadow force key className = .ok r) :
    ∃ states selectors css,
      Selector.ofStates className (some Selector.shadowGate) false force states = .ok selectors
      ∧ r = ⟨bodyOf selectors "box-shadow" css, none⟩ := by
  simp only [ofShadow, bind_eq_ok, pure_eq_ok, given_eq_ok, Prod.exists] at h
  obtain ⟨_, _, -, states, -, _, _, _, _, -, _, -, selectors, hs, rfl⟩ := h
  exact ⟨states, selectors, _, hs, rfl⟩

theorem ofColor_ok {force : Bool} (h : ofColor force key className = .ok r) :
    ∃ isRef states selectors property css,
      Selector.ofStates className none isRef force states = .ok selectors
      ∧ r = ⟨bodyOf selectors property css, none⟩ := by
  simp only [ofColor, bind_eq_ok, pure_eq_ok, mapError_eq_ok, given_eq_ok] at h
  obtain ⟨_, -, k, -, p, -, color, -, states, -, selectors, hs, rfl⟩ := h
  exact ⟨k.isRef, states, selectors, p.css, color, hs, rfl⟩

def IsOn (className : String) (r : Rule) : Prop :=
  ∃ selectors property value, r.body = bodyOf selectors property value ∧ selectors ≠ []
    ∧ ∀ s ∈ selectors, s.IsFor className

theorem IsOn.styledClass (h : r.IsOn className) (hname : ClassName.IsWord className.toList) :
    styledClass r.body = className := by
  obtain ⟨selectors, property, value, hbody, hne, hs⟩ := h
  rw [hbody]
  exact styledClass_bodyOf hname hne hs property value

theorem isOn_ofDecoration {p : DecorationProperty} (h : ofDecoration p key className = .ok r) :
    r.IsOn className := by
  obtain ⟨css, rfl⟩ := ofDecoration_ok h
  exact ⟨_, _, _, rfl, by simp [bare], Selector.isFor_bare className⟩

theorem isOn_ofScale {queries : MediaQueries} (h : ofScale queries key className = .ok r) :
    r.IsOn className := by
  obtain ⟨_, _, _, _, -, -, -, -, -, -, hbody⟩ := ofScale_ok h
  exact ⟨_, _, _, hbody, by simp [bare], Selector.isFor_bare className⟩

theorem isOn_ofRadius (h : ofRadius o key className = .ok r) : r.IsOn className := by
  obtain ⟨_, _, _, _, -, -, -, -, hs, -, hbody⟩ := ofRadius_ok h
  exact ⟨_, _, _, hbody, Selector.isFor_of_ofStates (.inl rfl) hs⟩

theorem isOn_ofShadow {force : Bool} (h : ofShadow force key className = .ok r) :
    r.IsOn className := by
  obtain ⟨_, _, _, hs, rfl⟩ := ofShadow_ok h
  exact ⟨_, _, _, rfl, Selector.isFor_of_ofStates (.inr rfl) hs⟩

theorem isOn_ofColor {force : Bool} (h : ofColor force key className = .ok r) :
    r.IsOn className := by
  obtain ⟨_, _, _, _, _, hs, rfl⟩ := ofColor_ok h
  exact ⟨_, _, _, rfl, Selector.isFor_of_ofStates (.inl rfl) hs⟩

/-- What comes of a key comes of it in some family, or no family takes the key. -/
theorem ofKey_elim {motive : Except RuleError Rule → Prop}
    (decoration : ∀ p, motive (ofDecoration p key className))
    (shadow : motive (ofShadow o.force key className))
    (radius : motive (ofRadius o key className))
    (scale : motive (ofScale o.queries key className))
    (color : motive (ofColor o.force key className))
    (unknown : motive (.error (.family key))) : motive (ofKey o key className) := by
  have hfamily : ∀ f ∈ families, motive (f.2 o key className) := by
    simp only [families, List.forall_mem_cons]
    exact ⟨decoration _, shadow, decoration _, decoration _, decoration _, decoration _,
      decoration _, radius, scale, color, List.forall_mem_nil _⟩
  rw [ofKey]
  split
  · next f hf => exact hfamily _ (List.mem_of_find?_eq_some hf)
  · exact unknown

/-- The rule of a key is that of some family. -/
theorem ofKey_cases {motive : Prop} (h : ofKey o key className = .ok r)
    (decoration : ∀ p, ofDecoration p key className = .ok r → motive)
    (shadow : ofShadow o.force key className = .ok r → motive)
    (radius : ofRadius o key className = .ok r → motive)
    (scale : ofScale o.queries key className = .ok r → motive)
    (color : ofColor o.force key className = .ok r → motive) : motive := by
  have hmotive : ofKey o key className = .ok r → motive := by
    apply ofKey_elim (motive := fun x => x = .ok r → motive) decoration shadow radius scale color
    intro hunknown
    cases hunknown
  exact hmotive h

/-- Whatever its family, the rule of a key is on the class of the key. -/
theorem isOn_ofKey (h : ofKey o key className = .ok r) : r.IsOn className :=
  ofKey_cases h (fun _ => isOn_ofDecoration) isOn_ofShadow isOn_ofRadius isOn_ofScale isOn_ofColor

def Compatible (a b : String) : Prop := a.toList <+: b.toList ∨ b.toList <+: a.toList

instance (a b : String) : Decidable (Compatible a b) :=
  inferInstanceAs (Decidable (a.toList <+: b.toList ∨ b.toList <+: a.toList))

theorem compatible_of_startsWith {a b : String} (ha : key.startsWith a = true)
    (hb : key.startsWith b = true) : Compatible a b := by
  rw [String.startsWith_string_iff] at ha hb
  exact List.prefix_or_prefix_of_prefix ha hb

/-- The first family whose keys can begin as a key does takes the key. -/
theorem ofKey_of_startsWith {front back : List (List String × Family)} {starts : List String}
    {family : Family} (hfamilies : families = front ++ (starts, family) :: back) {start : String}
    (hstart : start ∈ starts) (h : key.startsWith start = true)
    (hfront : ∀ f ∈ front, ∀ s ∈ f.1, ¬Compatible start s) (className : String) :
    ofKey o key className = family o key className := by
  have hnone : front.find? (fun f => f.1.any fun s => key.startsWith s) = none := by
    rw [List.find?_eq_none]
    intro f hf hany
    obtain ⟨s, hs, hkey⟩ := List.any_eq_true.1 hany
    exact hfront f hf s hs (compatible_of_startsWith h hkey)
  have hsome : (starts.any fun s => key.startsWith s) = true :=
    List.any_eq_true.2 ⟨start, hstart, h⟩
  have hfind : (front ++ (starts, family) :: back).find?
      (fun f => f.1.any fun s => key.startsWith s) = some (starts, family) := by
    rw [List.find?_append, hnone, Option.none_or]
    exact List.find?_cons_of_pos hsome
  rw [ofKey, hfamilies, hfind]

theorem ofKey_textFont (h : key.startsWith DecorationProperty.textFont.name = true)
    (className : String) : ofKey o key className = ofDecoration .textFont key className := by
  have hfamilies : families = families.take 6
      ++ ([DecorationProperty.textFont.name], fun _ => ofDecoration .textFont)
        :: families.drop 7 := rfl
  exact ofKey_of_startsWith hfamilies List.mem_cons_self h (by decide) className

theorem ofKey_shadow (h : key.startsWith "shadow" = true) (className : String) :
    ofKey o key className = ofShadow o.force key className := by
  have hfamilies : families = families.take 1
      ++ (["shadow"], fun o => ofShadow o.force) :: families.drop 2 := rfl
  exact ofKey_of_startsWith hfamilies List.mem_cons_self h (by decide) className

theorem ofKey_radius (h : key.startsWith ScaleProperty.borderRadius.name = true)
    (className : String) : ofKey o key className = ofRadius o key className := by
  have hfamilies : families = families.take 7
      ++ ([ScaleProperty.borderRadius.name], ofRadius) :: families.drop 8 := rfl
  exact ofKey_of_startsWith hfamilies List.mem_cons_self h (by decide) className

theorem ofKey_scale {p : ScaleProperty} (hp : p ≠ .borderRadius)
    (h : key.startsWith p.name = true) (className : String) :
    ofKey o key className = ofScale o.queries key className := by
  have hfamilies : families = families.take 8
      ++ ((ScaleProperty.all.filter (· != .borderRadius)).map ScaleProperty.name,
        fun o => ofScale o.queries) :: families.drop 9 := rfl
  have hp' : p ∈ ScaleProperty.all.filter (· != .borderRadius) := by
    cases p
    case borderRadius => exact absurd rfl hp
    all_goals decide
  have hfront : ∀ p ∈ ScaleProperty.all.filter (· != .borderRadius), ∀ f ∈ families.take 8,
      ∀ s ∈ f.1, ¬Compatible p.name s := by decide
  exact ofKey_of_startsWith hfamilies (List.mem_map_of_mem hp') h (hfront p hp') className

theorem ofKey_color {p : ColorProperty} (h : key.startsWith p.name = true) (className : String) :
    ofKey o key className = ofColor o.force key className := by
  have hfamilies : families = families.take 9
      ++ (ColorProperty.all.map ColorProperty.name, fun o => ofColor o.force) :: families.drop 10 :=
    rfl
  have hp : p.name ∈ ColorProperty.all.map ColorProperty.name := by cases p <;> decide
  have hfront : ∀ f ∈ families.take 9, ∀ s ∈ f.1, ¬Compatible p.name s := by
    cases p <;> decide
  exact ofKey_of_startsWith hfamilies hp h hfront className

/-- The media queries decide over nothing but the query of a rule. -/
theorem ofScale_of_queries {queries : MediaQueries} (h : ofScale queries key className = .ok r)
    (queries' : MediaQueries) : ∃ k, StyleKey.decode key = .ok k
      ∧ ofScale queries' key className
        = (mediaQuery queries' k.breakpoint).map fun media => ⟨r.body, media⟩ := by
  simp only [ofScale, bind_eq_ok, pure_eq_ok] at h
  obtain ⟨_, hmark, k, hk, p, hp, _, hstate, _, hsize, _, hvalue, x, hx, css, hcss, _, -, rfl⟩ := h
  refine ⟨k, mapError_eq_ok.1 hk, ?_⟩
  simp only [ofScale, hmark, hk, hp, hstate, hsize, hvalue, hx, hcss, bind, Except.bind]
  cases mediaQuery queries' k.breakpoint <;> rfl

theorem ofRadius_of_queries (h : ofRadius o key className = .ok r) (queries : MediaQueries) :
    ∃ k, StyleKey.decode key = .ok k
      ∧ ofRadius { o with queries } key className
        = (mediaQuery queries k.breakpoint).map fun media => ⟨r.body, media⟩ := by
  simp only [ofRadius, bind_eq_ok, pure_eq_ok] at h
  obtain ⟨k, hk, _, hp, x, hx, _, hsize, states, hstates, selectors, hselectors, _, -, rfl⟩ := h
  refine ⟨k, mapError_eq_ok.1 hk, ?_⟩
  simp only [ofRadius, hk, hp, hx, hsize, hstates, hselectors, bind, Except.bind]
  cases mediaQuery queries k.breakpoint <;> rfl

theorem ofKey_of_queries {p : ScaleProperty} (hstart : key.startsWith p.name = true)
    (h : ofKey o key className = .ok r) (queries : MediaQueries) :
    ∃ k, StyleKey.decode key = .ok k
      ∧ ofKey { o with queries } key className
        = (mediaQuery queries k.breakpoint).map fun media => ⟨r.body, media⟩ := by
  by_cases hp : p = .borderRadius
  · subst hp
    rw [ofKey_radius hstart] at h ⊢
    exact ofRadius_of_queries h queries
  · rw [ofKey_scale hp hstart] at h ⊢
    exact ofScale_of_queries h queries

end Rule
end AtomicCss

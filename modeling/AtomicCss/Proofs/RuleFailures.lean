import AtomicCss.Proofs.Families
import AtomicCss.Proofs.StyleKeys

/-!
# Keys without a rule

A key without a rule has a report, about the key or about CSS. There are three exceptions, all about
numbers that are too large: a color whose computation overflows, an integer of too many digits in a
list of font families, and a width of too many digits.
-/
namespace AtomicCss

/-- Whether a report is about a style key or about CSS. -/
def ErrorKind.IsStyling (k : ErrorKind) : Prop :=
  styleKey ∈ k :: k.ancestors ∨ cssGeneration ∈ k :: k.ancestors

theorem RuleError.diagnostic?_eq_none_iff {e : RuleError} :
    e.diagnostic? = none ↔ ∃ n, e = .number n := by
  cases e <;> simp [diagnostic?, kind?]

theorem RuleError.isStyling_kind {e : RuleError} {d : Diagnostic} (h : e.diagnostic? = some d) :
    d.kind.IsStyling := by
  obtain ⟨kind, hkind, rfl⟩ := Option.map_eq_some_iff.1 h
  cases e <;> cases hkind <;> simp [ErrorKind.IsStyling, ErrorKind.ancestors]

namespace Rule

section Unreported

variable {α β : Type}

/-- A computation fails and there is nothing to report. -/
def Unreported (x : Except RuleError α) : Prop := ∃ n, x = .error (.number n)

theorem unreported_bind {x : Except RuleError α} {f : α → Except RuleError β} :
    Unreported (x >>= f) ↔ Unreported x ∨ ∃ a, x = .ok a ∧ Unreported (f a) := by
  simp only [Unreported, bind_eq_error, exists_or]
  refine or_congr_right ⟨?_, ?_⟩
  · rintro ⟨n, a, ha, hn⟩
    exact ⟨a, ha, n, hn⟩
  · rintro ⟨a, ha, n, hn⟩
    exact ⟨n, a, ha, hn⟩

@[simp] theorem not_unreported_ok (a : α) : ¬Unreported (.ok a) := by simp [Unreported]

@[simp] theorem not_unreported_pure (a : α) : ¬Unreported (pure a : Except RuleError α) :=
  not_unreported_ok a

@[simp] theorem unreported_error {e : RuleError} :
    Unreported (.error e : Except RuleError α) ↔ e.diagnostic? = none := by
  simp [Unreported, RuleError.diagnostic?_eq_none_iff]

theorem unreported_given {a? : Option α} {e : RuleError} :
    Unreported (given a? e) ↔ a? = none ∧ e.diagnostic? = none := by
  cases a? <;> simp [given]

theorem unreported_require {holds : Bool} {e : RuleError} :
    Unreported (require holds e) ↔ holds = false ∧ e.diagnostic? = none := by
  cases holds <;> simp [require]

theorem not_unreported_requireSize (allowed : String → Bool) (size? : Option String)
    (key : String) : ¬Unreported (requireSize allowed size? key) := by
  cases size? with
  | none => exact not_unreported_ok ()
  | some size => simp [requireSize, unreported_require, RuleError.diagnostic?, RuleError.kind?]

theorem not_unreported_decode (key : String) :
    ¬Unreported ((StyleKey.decode key).mapError .undecodable) := by
  cases StyleKey.decode key <;> simp [Except.mapError, RuleError.diagnostic?, RuleError.kind?]

theorem not_unreported_ofTokens (key family : String) (isRef : Bool) (tokens : List String) :
    ¬Unreported (ActiveState.ofTokens key family isRef tokens) := by
  rw [ActiveState.ofTokens]
  induction tokens with
  | nil => simp
  | cons token tokens ih =>
    simp only [List.mapM_cons, unreported_bind, not_unreported_pure, and_false, exists_false,
      or_false, ih]
    split
    · simp
    · cases isRef <;> simp [RuleError.diagnostic?, RuleError.kind?]

theorem not_unreported_ofStates (className : String) (gate : Option String) (isRef force : Bool)
    (states : List ActiveState) :
    ¬Unreported (Selector.ofStates className gate isRef force states) := by
  simp only [Selector.ofStates]
  split
  · cases isRef <;> simp [RuleError.diagnostic?, RuleError.kind?]
  · simp

theorem unreported_mediaQuery {queries : MediaQueries} {breakpoint : Option String} :
    Unreported (mediaQuery queries breakpoint)
      ↔ ∃ token, Location.known breakpoint = some token ∧ queries.get? token = some none := by
  rw [mediaQuery]
  cases Location.known breakpoint with
  | none => simp
  | some token =>
    rcases hquery : queries.get? token with _ | _ | query <;>
      simp [hquery, RuleError.diagnostic?, RuleError.kind?]

theorem unreported_map {x : Except RuleError α} {f : α → β} :
    Unreported (x.map f) ↔ Unreported x := by
  cases x <;> simp [Except.map]

end Unreported

section Families

variable {o : RuleOptions} {key className : String}

/-- A list of font families in which an integer has too many digits. -/
def HasLongInteger (key : String) : Prop :=
  ∃ value, decorationValue DecorationProperty.textFont.name key = .ok value
    ∧ Json.read value = .error .tooManyDigits

/-- The width of the key's breakpoint is too long to be written. With another query for the
breakpoint the key has a rule. -/
def HasLongWidth (o : RuleOptions) (key className : String) : Prop :=
  ∃ p : ScaleProperty, key.startsWith p.name = true ∧ ∃ k token, StyleKey.decode key = .ok k
    ∧ Location.known k.breakpoint = some token ∧ o.queries.get? token = some none
    ∧ ∃ r, ofKey { o with queries := [(token, some "")] } key className = .ok r

/-- The color that the rule of a key is to have. It is read as soon as the key is known to be that
of a color, or the states and the offsets of a shadow are known. -/
inductive ReadsColor (key : String) (v : Value) : Prop
  | color {inside : List Char} {k : StyleKey.Decoded} {p : ColorProperty}
    (hinside : bracketed? key.toList = some inside) (hk : StyleKey.decode key = .ok k)
    (hp : ColorProperty.ofName? k.property = some p)
    (hv : Json.readChars ('[' :: inside ++ [']']) = .ok v)
  | shadow {state : String} {value color : List Char} {states : List ActiveState}
    {x y blur : Float} (hparts : shadowParts? key = some (state, value))
    (hstates : ActiveState.ofTokens key "shadow" false (StyleKey.stateTokens state) = .ok states)
    (hvalue : shadowValue? value = some (x, y, blur, color))
    (hv : Json.readChars (Blank.strip color) = .ok v)

theorem unreported_colorOfJson {text : List Char} {invalid : RuleError}
    (h : invalid.diagnostic? ≠ none) : Unreported (colorOfJson text invalid)
      ↔ ∃ v, Json.readChars text = .ok v ∧ Color.hexOfHsla v = .error (.number .overflow) := by
  rw [colorOfJson]
  cases Json.readChars text with
  | error e => simp [h]
  | ok v =>
    simp only [Except.ok.injEq, exists_eq_left']
    split
    · simp_all
    · next hoverflow => simp [hoverflow, RuleError.diagnostic?, RuleError.kind?]
    · simp_all

theorem unreported_ofColor {force : Bool} : Unreported (ofColor force key className)
    ↔ ∃ inside k p v, bracketed? key.toList = some inside ∧ StyleKey.decode key = .ok k
      ∧ ColorProperty.ofName? k.property = some p
      ∧ Json.readChars ('[' :: inside ++ [']']) = .ok v
      ∧ Color.hexOfHsla v = .error (.number .overflow) := by
  have hbrackets : RuleError.bracketsExpected.diagnostic? ≠ none := nofun
  simp only [ofColor, unreported_bind, unreported_given, given_eq_ok, mapError_eq_ok,
    not_unreported_decode, not_unreported_ofTokens, not_unreported_ofStates,
    not_unreported_pure, unreported_colorOfJson hbrackets, and_false, exists_false, or_false,
    false_or, RuleError.diagnostic?, RuleError.kind?, Option.map_some, reduceCtorEq]
  constructor
  · rintro ⟨inside, hinside, k, hk, p, hp, v, hv, hoverflow⟩
    exact ⟨inside, k, p, v, hinside, hk, hp, hv, hoverflow⟩
  · rintro ⟨inside, k, p, v, hinside, hk, hp, hv, hoverflow⟩
    exact ⟨inside, hinside, k, hk, p, hp, v, hv, hoverflow⟩

theorem unreported_ofShadow {force : Bool} : Unreported (ofShadow force key className)
    ↔ ∃ state value states x y blur color v, shadowParts? key = some (state, value)
      ∧ ActiveState.ofTokens key "shadow" false (StyleKey.stateTokens state) = .ok states
      ∧ shadowValue? value = some (x, y, blur, color)
      ∧ Json.readChars (Blank.strip color) = .ok v
      ∧ Color.hexOfHsla v = .error (.number .overflow) := by
  have hcolor : RuleError.shadowColor.diagnostic? ≠ none := nofun
  simp only [ofShadow, unreported_bind, unreported_given, given_eq_ok, not_unreported_ofTokens,
    not_unreported_ofStates, not_unreported_pure, unreported_colorOfJson hcolor, and_false,
    exists_false, or_false, false_or, RuleError.diagnostic?, RuleError.kind?, Option.map_some,
    reduceCtorEq, Prod.exists]
  constructor
  · rintro ⟨state, value, hparts, states, hstates, x, y, blur, color, hvalue, v, hv, hoverflow⟩
    exact ⟨state, value, states, x, y, blur, color, v, hparts, hstates, hvalue, hv, hoverflow⟩
  · rintro ⟨state, value, states, x, y, blur, color, v, hparts, hstates, hvalue, hv, hoverflow⟩
    exact ⟨state, value, hparts, states, hstates, x, y, blur, color, hvalue, v, hv, hoverflow⟩

/-- A query for the one breakpoint that is asked for is found. -/
theorem mediaQuery_single {breakpoint : Option String} {token : String}
    (h : Location.known breakpoint = some token) (query : String) :
    mediaQuery [(token, some query)] breakpoint = .ok (some query) := by
  simp [mediaQuery, h, Dict.get?_cons]

theorem hasLongWidth_ofRadius (h : Unreported (ofRadius o key className)) :
    HasLongWidth o key className := by
  simp only [ofRadius, unreported_bind, unreported_given, unreported_require,
    not_unreported_requireSize, not_unreported_decode, not_unreported_ofTokens,
    not_unreported_ofStates, unreported_mediaQuery, not_unreported_pure, RuleError.diagnostic?,
    RuleError.kind?, Option.map_some, reduceCtorEq, and_false, exists_false, or_false,
    false_or] at h
  obtain ⟨k, hk, _, hp, x, hx, _, hsize, states, hstates, selectors, hs, token, htoken, hnone⟩ := h
  have hdecode := mapError_eq_ok.1 hk
  have hstart : key.startsWith ScaleProperty.borderRadius.name = true := by
    rw [← beq_iff_eq.1 (require_eq_ok.1 hp)]
    exact StyleKey.startsWith_of_decode hdecode
  refine ⟨.borderRadius, hstart, k, token, hdecode, htoken, hnone, ?_⟩
  rw [ofKey_radius hstart]
  simp only [ofRadius, hk, hp, hx, hsize, hstates, hs, mediaQuery_single htoken, bind, Except.bind]
  exact ⟨_, rfl⟩

/-- Every number of pixels is a length, since the root is not of size zero. -/
theorem exists_scaleLength (p : ScaleProperty) (x : Float) : ∃ css, scaleLength p x = .ok css := by
  have hunits : ∃ units, (Number.float x).divide Length.rootPixels.count = .ok units :=
    ⟨_, rfl⟩
  obtain ⟨units, hunits⟩ := hunits
  cases p
  case textSize =>
    rw [scaleLength, Length.rem]
    split
    · exact ⟨"0", rfl⟩
    · exact ⟨_, bind_eq_ok.2 ⟨units, hunits, rfl⟩⟩
  all_goals exact ⟨_, rfl⟩

theorem hasLongWidth_ofScale (h : Unreported (ofScale o.queries key className)) :
    HasLongWidth o key className := by
  have hlength : ∀ p x, ¬Unreported ((scaleLength p x).mapError .number) := by
    intro p x
    obtain ⟨css, hcss⟩ := exists_scaleLength p x
    rw [hcss]
    exact not_unreported_ok css
  simp only [ofScale, unreported_bind, unreported_given, unreported_require,
    not_unreported_requireSize, not_unreported_decode, unreported_mediaQuery, hlength,
    not_unreported_pure, RuleError.diagnostic?, RuleError.kind?, Option.map_some, reduceCtorEq,
    and_false, exists_false, or_false, false_or] at h
  obtain ⟨_, hmark, k, hk, p, hp, _, hstate, _, hsize, _, hvalue, x, hx, css, hcss, token, htoken,
    hnone⟩ := h
  have hdecode := mapError_eq_ok.1 hk
  obtain ⟨hname, hradius⟩ := Option.filter_eq_some_iff.1 (given_eq_ok.1 hp)
  have hproperty : p.name = k.property := by simpa using List.find?_some hname
  have hstart : key.startsWith p.name = true := hproperty ▸ StyleKey.startsWith_of_decode hdecode
  refine ⟨p, hstart, k, token, hdecode, htoken, hnone, ?_⟩
  rw [ofKey_scale (by simpa using hradius) hstart]
  simp only [ofScale, hmark, hk, hp, hstate, hsize, hvalue, hx, hcss, mediaQuery_single htoken,
    bind, Except.bind]
  exact ⟨_, rfl⟩

theorem HasLongWidth.unreported (h : HasLongWidth o key className) :
    Unreported (ofKey o key className) := by
  obtain ⟨p, hstart, k, token, hk, htoken, hnone, r, hr⟩ := h
  obtain ⟨k', hk', heq⟩ := ofKey_of_queries hstart hr o.queries
  obtain rfl := Except.ok.inj (hk.symm.trans hk')
  have hkey : ofKey o key className = _ := heq
  rw [hkey, unreported_map]
  exact unreported_mediaQuery.2 ⟨token, htoken, hnone⟩

theorem not_unreported_decorationValue (property : String) :
    ¬Unreported (decorationValue property key) := by
  simp only [decorationValue, unreported_bind, unreported_require, not_unreported_pure,
    RuleError.diagnostic?, RuleError.kind?, Option.map_some, reduceCtorEq, and_false, exists_false,
    or_self, not_false_eq_true]

theorem decorationCss_eq_given {p : DecorationProperty} (hp : p ≠ .textFont) (value : String) :
    decorationCss p value key = given (Dict.get? p.words value) (.value p.name value key) := by
  rw [decorationCss]
  · cases Dict.get? p.words value <;> rfl
  · exact hp

theorem unreported_decorationCss {p : DecorationProperty} {value : String} :
    Unreported (decorationCss p value key)
      ↔ p = .textFont ∧ Json.read value = .error .tooManyDigits := by
  by_cases hp : p = .textFont
  · subst hp
    rw [decorationCss]
    split
    · next h => simp [h, RuleError.diagnostic?, RuleError.kind?]
    · next h => simp [h, RuleError.diagnostic?, RuleError.kind?]
    · next v h => split <;> simp [h, RuleError.diagnostic?, RuleError.kind?]
  · rw [decorationCss_eq_given hp, unreported_given]
    simp [hp, RuleError.diagnostic?, RuleError.kind?]

theorem unreported_ofDecoration {p : DecorationProperty} :
    Unreported (ofDecoration p key className) ↔ p = .textFont ∧ HasLongInteger key := by
  simp only [ofDecoration, unreported_bind, not_unreported_decorationValue, not_unreported_pure,
    unreported_decorationCss, HasLongInteger, and_false, exists_false, false_or, or_false]
  constructor
  · rintro ⟨value, hvalue, rfl, hlong⟩
    exact ⟨rfl, value, hvalue, hlong⟩
  · rintro ⟨rfl, value, hvalue, hlong⟩
    exact ⟨value, hvalue, rfl, hlong⟩

theorem startsWith_of_decorationValue {property value : String}
    (h : decorationValue property key = .ok value) : key.startsWith property = true := by
  simp only [decorationValue, bind_eq_ok, require_eq_ok, beq_iff_eq] at h
  obtain ⟨_, rfl, -⟩ := h
  rw [String.startsWith_string_iff]
  cases hcut : StyleKey.cutString "__" key with
  | none => exact List.prefix_rfl
  | some m => exact StyleKey.prefix_of_cutString hcut

theorem startsWith_of_shadowParts? {state : String} {value : List Char}
    (h : shadowParts? key = some (state, value)) : key.startsWith "shadow" = true := by
  obtain ⟨_, hhead, -⟩ := Option.bind_eq_some_iff.1 h
  obtain ⟨_, hafter, -⟩ := Option.bind_eq_some_iff.1 hhead
  rw [String.startsWith_string_iff, Text.after?_eq_some.1 hafter]
  exact List.prefix_append _ _

/-- A key fails without a report exactly if a color, an integer or a width of it is too large. -/
theorem unreported_ofKey : Unreported (ofKey o key className) ↔ HasLongInteger key
    ∨ HasLongWidth o key className
    ∨ ∃ v, ReadsColor key v ∧ Color.hexOfHsla v = .error (.number .overflow) := by
  constructor
  · apply ofKey_elim (motive := fun x => Unreported x → HasLongInteger key
      ∨ HasLongWidth o key className
      ∨ ∃ v, ReadsColor key v ∧ Color.hexOfHsla v = .error (.number .overflow))
    case decoration => exact fun p h => .inl (unreported_ofDecoration.1 h).2
    case shadow =>
      intro h
      obtain ⟨_, _, _, _, _, _, _, v, hparts, hstates, hvalue, hv, hoverflow⟩ :=
        unreported_ofShadow.1 h
      exact .inr (.inr ⟨v, .shadow hparts hstates hvalue hv, hoverflow⟩)
    case radius => exact fun h => .inr (.inl (hasLongWidth_ofRadius h))
    case scale => exact fun h => .inr (.inl (hasLongWidth_ofScale h))
    case color =>
      intro h
      obtain ⟨_, _, _, v, hinside, hk, hp, hv, hoverflow⟩ := unreported_ofColor.1 h
      exact .inr (.inr ⟨v, .color hinside hk hp hv, hoverflow⟩)
    case unknown =>
      intro h
      exact absurd h (by simp [RuleError.diagnostic?, RuleError.kind?])
  · rintro (hlong | hwidth | ⟨v, hv, hoverflow⟩)
    · obtain ⟨value, hvalue, hread⟩ := hlong
      rw [ofKey_textFont (startsWith_of_decorationValue hvalue)]
      exact unreported_ofDecoration.2 ⟨rfl, value, hvalue, hread⟩
    · exact hwidth.unreported
    · cases hv with
      | @color inside k p hinside hk hp hv =>
        have hname : p.name = k.property := by simpa using List.find?_some hp
        rw [ofKey_color (p := p) (hname ▸ StyleKey.startsWith_of_decode hk)]
        exact unreported_ofColor.2 ⟨inside, k, p, v, hinside, hk, hp, hv, hoverflow⟩
      | @shadow state value color states x y blur hparts hstates hvalue hv =>
        rw [ofKey_shadow (startsWith_of_shadowParts? hparts)]
        exact unreported_ofShadow.2
          ⟨state, value, states, x, y, blur, color, v, hparts, hstates, hvalue, hv, hoverflow⟩

end Families

/-- There is a rule, or a report about a style key or about CSS. -/
def IsAnswered (x : Except RuleError Rule) : Prop :=
  (∃ r, x = .ok r) ∨ ∃ e d, x = .error e ∧ e.diagnostic? = some d ∧ d.kind.IsStyling

theorem isAnswered_iff {x : Except RuleError Rule} : IsAnswered x ↔ ¬Unreported x := by
  cases x with
  | ok r => simp [IsAnswered]
  | error e =>
    rw [unreported_error, ← ne_eq, Option.ne_none_iff_exists']
    constructor
    · rintro (⟨r, hr⟩ | ⟨_, d, he, hd, -⟩)
      · cases hr
      · obtain rfl := Except.error.inj he
        exact ⟨d, hd⟩
    · rintro ⟨d, hd⟩
      exact .inr ⟨e, d, rfl, hd, RuleError.isStyling_kind hd⟩

/-- Every key has a rule or is reported, unless its color overflows, or an integer in its list of
font families or the width of its breakpoint has too many digits. -/
theorem isAnswered_ofKey_iff (o : RuleOptions) (key className : String) :
    IsAnswered (ofKey o key className) ↔ ¬HasLongInteger key ∧ ¬HasLongWidth o key className
      ∧ ∀ v, ReadsColor key v → Color.hexOfHsla v ≠ .error (.number .overflow) := by
  rw [isAnswered_iff, unreported_ofKey]
  simp only [not_or, not_exists, not_and, ne_eq]

/-- A lightness close to the largest float overflows when it is scaled to a channel. -/
theorem not_isAnswered_ofKey :
    ¬IsAnswered (ofKey { force := false } "boxColor__[0,0,1e308]" "a") := by
  have hreport : (match ofKey { force := false } "boxColor__[0,0,1e308]" "a" with
      | .ok _ => false
      | .error e => e.diagnostic?.isNone) = true := by decide +kernel
  rw [isAnswered_iff, not_not]
  split at hreport
  · cases hreport
  · next e he =>
    rw [he, unreported_error]
    simpa using hreport

end Rule
end AtomicCss

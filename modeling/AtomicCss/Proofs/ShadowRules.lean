import AtomicCss.Proofs.RoundingOrder
import AtomicCss.Proofs.ShadowTexts
import AtomicCss.Schema.Check

/-!
# The rules of shadows

The key of a shadow in a state has a rule with the offsets, the blur and the color in the state,
unless one of the numbers is written with an exponent, or the color holds an integer of too many
digits. An integer is read as the nearest float, so it stays what it was only if it is a float.
-/
namespace AtomicCss

namespace Number

theorem normalize_normalize (n : Number) : n.normalize.normalize = n.normalize := by
  cases n with
  | int n => rfl
  | float x => cases hint : x.integer? <;> simp [normalize, hint]

theorem isZero_int {k : Int} : (Number.int k).isZero = true ↔ k = 0 := by
  have hzero : (Number.int k).isZero = (Number.int k).equal (.int 0) := rfl
  rw [hzero, equal_int_iff]
  simp [ratio?, Ratio.ofInt]

/-- A finite float is written with a point or an exponent, unlike an integer. -/
theorem text_ne_intText {x : Float} (hx : x.isFinite = true) (k : Int) :
    (Number.float x).text ≠ intText k := by
  intro h
  obtain ⟨m, q, hbinary⟩ := Float.exists_of_isFinite hx
  obtain ⟨w, htext, hw, -⟩ := Decimal.exists_text .program hbinary
  have hmark : '.' ∈ (intText k).toList ∨ 'e' ∈ (intText k).toList := by
    rw [← h, text, htext, Decimal.Written.chars]
    rcases hw.marked with hfraction | hexponent
    · exact .inl (by simp [hfraction])
    · obtain ⟨e, he⟩ := Option.isSome_iff_exists.1 hexponent
      exact .inr (by simp [he, Decimal.Written.exponentChars])
  exact hmark.elim (notMem_intText rfl (by decide) k) (notMem_intText rfl (by decide) k)

end Number

namespace Length

theorem px_normalize (n : Number) : px n.normalize = px n := by
  have hzero : n.normalize.isZero = n.isZero := n.equal_normalize 0
  rw [px, px, Amount.count, Amount.count, hzero, Amount.text, Amount.text, n.normalize_normalize]

/-- A length other than zero shows how its number is written. -/
theorem text_of_px {n m : Number} (hm : m.isZero = false) (h : px n = px m) :
    n.normalize.text = m.normalize.text := by
  rw [px, px, Amount.count, Amount.count, hm, if_neg Bool.false_ne_true, Amount.text,
    Amount.text] at h
  split at h
  · have hlength := congrArg String.length h
    rw [String.length_append] at hlength
    change 1 = _ + 2 at hlength
    omega
  · simpa using h

/-- An integer has the length of its nearest float iff it is the float. -/
theorem px_int_iff {k : Int} {x : Float} (hx : (Number.int k).toFloat = .ok x) :
    px (Number.float x) = px (Number.int k) ↔ x.integer? = some k := by
  constructor
  · intro h
    by_cases hk : k = 0
    · subst hk
      obtain rfl : (Ratio.ofInt 0).nearest = x := Except.ok.inj hx
      decide +kernel
    · have hint : (Number.int k).isZero = false := by simpa using Number.isZero_int.not.2 hk
      have hfinite : x.isFinite = true := by
        rw [Number.toFloat] at hx
        split at hx
        · next hfinite => rwa [← Except.ok.inj hx]
        · cases hx
      have htext : (Number.float x).normalize.text = Number.intText k := text_of_px hint h
      cases hwhole : x.integer? with
      | none =>
        simp only [Number.normalize, hwhole] at htext
        exact absurd htext (Number.text_ne_intText hfinite k)
      | some j =>
        simp only [Number.normalize, hwhole] at htext
        rw [Number.intText_injective htext]
  · intro h
    rw [← px_normalize (.float x), Number.normalize, h]

end Length

namespace Selector

/-- Shadows have their selectors in every state, each behind the gate. -/
theorem exists_ofStates_gated (className : String) (force : Bool) (states : List ActiveState) :
    ∃ selectors, ofStates className (some shadowGate) false force states = .ok selectors
      ∧ ∀ s ∈ selectors, .ofClass shadowGate ∈ s.element := by
  have hgate : .ofClass shadowGate ∈ target className (some shadowGate) := by
    simp [target, Location.known, shadowGate]
  have hnative : ∀ s, native? (target className (some shadowGate)) false states = some s →
      .ofClass shadowGate ∈ s.element := by
    intro s hs
    obtain ⟨-, hs⟩ := Option.ite_none_right_eq_some.1 hs
    cases hs
    exact List.mem_append_left _ hgate
  have hforced : ∀ s, forced? (target className (some shadowGate)) false force states = some s →
      .ofClass shadowGate ∈ s.element := by
    intro s hs
    obtain ⟨-, hs⟩ := Option.ite_none_right_eq_some.1 hs
    cases hs
    exact List.mem_append_left _ (List.mem_append_left _ hgate)
  simp only [ofStates]
  split
  · exact ⟨_, rfl, by simpa using hgate⟩
  · refine ⟨_, rfl, fun s hs => ?_⟩
    simp only [List.mem_filterMap, List.mem_cons, List.not_mem_nil, or_false, id_eq] at hs
    obtain ⟨s?, hs | hs, rfl⟩ := hs
    · exact hnative s hs.symm
    · exact hforced s hs.symm

end Selector

/-- A number is in a rule what it is in the shadow: it is written without an exponent, and if it is
an integer, it is a float as well. -/
structure Number.IsKept (n : Number) : Prop where
  written : 'e' ∉ n.keyChars
  exact : ∀ k x, n = .int k → n.toFloat = .ok x → x.integer? = some k

theorem Number.isKept_int {k : Int}
    (h : (Number.int k).toFloat.toOption.bind Float.integer? = some k) : (Number.int k).IsKept where
  written := notMem_intText rfl (by decide) k
  exact := by
    rintro k' x ⟨⟩ hx
    rwa [hx] at h

theorem Number.isKept_float {x : Float} (h : 'e' ∉ (Number.float x).keyChars) :
    (Number.float x).IsKept where
  written := h
  exact := nofun

theorem Number.IsFinite.pixels_eq_iff {n : Number} (hn : n.IsFinite) {y : Float}
    (hy : Numeral.float? n.keyChars = some y) : Rule.pixels y = Length.px n
      ↔ ∀ k x, n = .int k → n.toFloat = .ok x → x.integer? = some k := by
  obtain ⟨x, hx, hfinite⟩ := hn
  obtain ⟨y', hy', hagrees⟩ := IsFinite.float?_keyChars ⟨x, hx, hfinite⟩ hx
  obtain rfl := Option.some.inj (hy'.symm.trans hy)
  have hpixels : Rule.pixels y' = Length.px (Number.float x) := (Length.px_congr hagrees).symm
  rw [hpixels]
  cases n with
  | float z =>
    obtain rfl : z = x := Except.ok.inj hx
    exact iff_of_true rfl nofun
  | int k =>
    rw [Length.px_int_iff hx]
    constructor
    · rintro h k' x' ⟨⟩ hx'
      obtain rfl := Except.ok.inj (hx.symm.trans hx')
      exact h
    · exact fun h => h k x rfl hx

namespace Value

mutual

/-- The integer that a whole float becomes is not too long to be written. -/
theorem isWritable_normalize : ∀ v : Value, v.normalize.IsWritable ↔ v.IsWritable
  | .null | .bool _ | .text _ | .number (.int _) => Iff.rfl
  | .number (.float x) => by
    refine iff_of_true ?_ (List.forall_mem_nil _)
    cases hwhole : x.integer? with
    | none =>
      rw [normalize, Number.normalize, hwhole]
      exact List.forall_mem_nil _
    | some k =>
      rw [normalize, Number.normalize, hwhole]
      obtain ⟨y, hy, -⟩ := Float.toFloat_of_integer? hwhole
      exact Number.isWritable_of_toFloat hy
  | .list items => by
    rw [normalize, isWritable_list, isWritable_list, isWritable_normalizeItems items]
  | .map members => by
    rw [normalize, isWritable_map, isWritable_map, isWritable_normalizeMembers members]

theorem isWritable_normalizeItems : ∀ items : List Value,
    (∀ v ∈ normalizeItems items, v.IsWritable) ↔ ∀ v ∈ items, v.IsWritable
  | [] => Iff.rfl
  | v :: items => by
    rw [normalizeItems, List.forall_mem_cons, List.forall_mem_cons, isWritable_normalize v,
      isWritable_normalizeItems items]

theorem isWritable_normalizeMembers : ∀ members : List (String × Value),
    (∀ m ∈ normalizeMembers members, m.2.IsWritable) ↔ ∀ m ∈ members, m.2.IsWritable
  | [] => Iff.rfl
  | (_, v) :: members => by
    rw [normalizeMembers, List.forall_mem_cons, List.forall_mem_cons, isWritable_normalize v,
      isWritable_normalizeMembers members]

end

end Value

namespace Shadow.InState

variable (v : InState)

def css (hex : String) : String := " ".intercalate (v.numbers.map (fun n => Length.px n) ++ [hex])

/-- The key of what a shadow is in a state has its rule, for the class in the state and behind the
gate. -/
def HasRule (state : InteractionState) (force : Bool) (className key : String) : Prop :=
  ∃ selectors hex, Selector.ofStates className (some Selector.shadowGate) false force
      (ActiveState.ofName? state.name).toList = .ok selectors
    ∧ (∀ s ∈ selectors, .ofClass Selector.shadowGate ∈ s.element)
    ∧ Color.hexOfHsla v.color = .ok hex
    ∧ Rule.ofShadow force key className
      = .ok ⟨Rule.bodyOf selectors "box-shadow" (v.css hex), none⟩

/-- The numbers are kept, and no integer within the color has too many digits. -/
structure IsLegible : Prop where
  numbers : ∀ n ∈ v.numbers, n.IsKept
  color : v.color.normalize.IsWritable

theorem ofTokens_key (state : InteractionState) (key : String) :
    ActiveState.ofTokens key "shadow" false
        (StyleKey.stateTokens (if state = .rest then "" else state.name))
      = .ok (ActiveState.ofName? state.name).toList := by
  cases state <;> rfl

variable {v}

theorem strip_colorChars {items : List Value} (hcolor : v.color = .list items) :
    Blank.strip v.colorChars = v.colorChars := by
  obtain ⟨inside, hinside⟩ := Json.exists_write_list .key 1 (Value.normalizeItems items)
  have hchars : v.colorChars = '[' :: (inside ++ [']']) := by
    rw [colorChars, hcolor]
    exact hinside
  have hclose : (inside ++ [']']).reverse.dropWhile Blank.isBlank = ']' :: inside.reverse := by
    rw [List.reverse_append]
    rfl
  have hopen := Blank.trim_append_cons (p := Blank.isBlank) (c := '[') rfl [] (inside ++ [']'])
  rw [List.nil_append, hclose] at hopen
  rw [hchars, Blank.strip, hopen]
  simp

variable {state : InteractionState} {force : Bool} {className : String}

/-- The rule of the key, as it is read off the texts in the key. -/
theorem ofShadow_key_eq_ok (hnumbers : ∀ n ∈ v.numbers, n.IsFinite) {items : List Value}
    (hcolor : v.color = .list items) {r : Rule} :
    Rule.ofShadow force (v.key state) className = .ok r
      ↔ (∀ n ∈ v.numbers, 'e' ∉ n.keyChars) ∧ ∃ x y blur color hex selectors,
        Numeral.float? v.x.keyChars = some x ∧ Numeral.float? v.y.keyChars = some y
        ∧ Numeral.float? v.blur.keyChars = some blur
        ∧ Json.reread v.color.normalize = .ok color ∧ Color.hexOfHsla color = .ok hex
        ∧ Selector.ofStates className (some Selector.shadowGate) false force
          (ActiveState.ofName? state.name).toList = .ok selectors
        ∧ ⟨Rule.bodyOf selectors "box-shadow" (" ".intercalate
          [Rule.pixels x, Rule.pixels y, Rule.pixels blur, hex]), none⟩ = r := by
  have hread : Json.readChars v.colorChars = Json.reread v.color.normalize :=
    Json.readChars_write rfl 1 v.color.normalize
  simp only [Rule.ofShadow, bind_eq_ok, pure_eq_ok, given_eq_ok, v.shadowParts?_key,
    Option.some.injEq, Prod.exists, ofTokens_key, Except.ok.injEq, v.shadowValue?_body hnumbers,
    Rule.colorOfJson_eq_ok, exists_eq_left']
  constructor
  · rintro ⟨x, y, blur, _, ⟨hplain, hx, hy, hblur, rfl⟩, hex, ⟨color, hcolor', hhex⟩, selectors,
      hselectors, hr⟩
    rw [strip_colorChars hcolor, hread] at hcolor'
    exact ⟨hplain, x, y, blur, color, hex, selectors, hx, hy, hblur, hcolor', hhex, hselectors, hr⟩
  · rintro ⟨hplain, x, y, blur, color, hex, selectors, hx, hy, hblur, hcolor', hhex, hselectors, hr⟩
    rw [← hread, ← strip_colorChars hcolor] at hcolor'
    exact ⟨x, y, blur, _, ⟨hplain, hx, hy, hblur, rfl⟩, hex, ⟨color, hcolor', hhex⟩, selectors,
      hselectors, hr⟩

/-- Lengths are told apart in a declaration, for none of them holds a space. -/
theorem intercalate_eq_css_iff {x y blur : Float} {hex : String} :
    " ".intercalate [Rule.pixels x, Rule.pixels y, Rule.pixels blur, hex] = v.css hex
      ↔ Rule.pixels x = Length.px v.x ∧ Rule.pixels y = Length.px v.y
        ∧ Rule.pixels blur = Length.px v.blur := by
  have hjoin : ∀ a b c : String, (" ".intercalate [a, b, c, hex]).toList
      = a.toList ++ ' ' :: (b.toList ++ ' ' :: (c.toList ++ ' ' :: hex.toList)) := by
    intro a b c
    simp
  have hfront : ∀ {x : Float} {n : Number} {s t : List Char},
      (Rule.pixels x).toList ++ ' ' :: s = (Length.px n).toList ++ ' ' :: t →
        Rule.pixels x = Length.px n ∧ s = t := by
    intro x n s t h
    have hspace := fun n => Length.notMem_px (c := ' ') (by decide) (by decide) (by decide) n
    obtain ⟨hlength, hrest⟩ := Text.eq_of_append_mark (hspace (.float x)) (hspace n) h
    exact ⟨String.toList_inj.1 hlength, hrest⟩
  constructor
  · intro h
    rw [← String.toList_inj, hjoin] at h
    obtain ⟨hx, h⟩ := hfront (h.trans (hjoin _ _ _))
    obtain ⟨hy, h⟩ := hfront h
    exact ⟨hx, hy, (hfront h).1⟩
  · rintro ⟨hx, hy, hblur⟩
    rw [hx, hy, hblur]
    rfl

section

variable {items : List Value} (hcolor : v.color = .list items) {hex : String}
  (hhex : Color.hexOfHsla v.color = .ok hex)
include hcolor hhex

theorem hexOfHsla_reread {color : Value} (hread : Json.reread v.color.normalize = .ok color) :
    Color.hexOfHsla color = .ok hex := by
  rw [hcolor] at hread hhex
  exact Color.hexOfHsla_reread hread (Color.hexOfHsla_normalize hhex)

variable (hnumbers : ∀ n ∈ v.numbers, n.IsFinite)
include hnumbers

theorem isLegible_of_hasRule (h : v.HasRule state force className (v.key state)) :
    v.IsLegible := by
  obtain ⟨selectors, hex', hselectors, -, hhex', hrule⟩ := h
  obtain rfl := Except.ok.inj (hhex.symm.trans hhex')
  obtain ⟨hplain, x, y, blur, color, hex', selectors', hxread, hyread, hblurread, hread,
    hcolorhex, hselectors', hbody⟩ := (ofShadow_key_eq_ok hnumbers hcolor).1 hrule
  obtain rfl := Except.ok.inj (hcolorhex.symm.trans (hexOfHsla_reread hcolor hhex hread))
  obtain rfl := Except.ok.inj (hselectors.symm.trans hselectors')
  obtain ⟨hxpx, hypx, hblurpx⟩ :=
    intercalate_eq_css_iff.1 (Rule.bodyOf_inj (congrArg Rule.body hbody))
  have hkept : ∀ {n : Number} {y : Float}, n ∈ v.numbers →
      Numeral.float? n.keyChars = some y → Rule.pixels y = Length.px n → n.IsKept :=
    fun hn hy hpx => ⟨hplain _ hn, ((hnumbers _ hn).pixels_eq_iff hy).1 hpx⟩
  refine ⟨?_, (Json.exists_reread _).1 ⟨color, hread⟩⟩
  simp only [numbers, List.forall_mem_cons, List.not_mem_nil, false_imp_iff, implies_true,
    and_true]
  exact ⟨hkept (by simp [numbers]) hxread hxpx, hkept (by simp [numbers]) hyread hypx,
    hkept (by simp [numbers]) hblurread hblurpx⟩

theorem hasRule_of_isLegible (hlegible : v.IsLegible) :
    v.HasRule state force className (v.key state) := by
  obtain ⟨selectors, hselectors, hgate⟩ := Selector.exists_ofStates_gated className force
    (ActiveState.ofName? state.name).toList
  obtain ⟨color, hread⟩ := (Json.exists_reread _).2 hlegible.color
  have hpixels : ∀ n ∈ v.numbers, ∃ y, Numeral.float? n.keyChars = some y
      ∧ Rule.pixels y = Length.px n := by
    intro n hn
    obtain ⟨x, hx, hfinite⟩ := hnumbers n hn
    obtain ⟨y, hy, -⟩ := Number.IsFinite.float?_keyChars ⟨x, hx, hfinite⟩ hx
    exact ⟨y, hy, ((hnumbers n hn).pixels_eq_iff hy).2 (hlegible.numbers n hn).exact⟩
  obtain ⟨x, hxread, hxpx⟩ := hpixels v.x (by simp [numbers])
  obtain ⟨y, hyread, hypx⟩ := hpixels v.y (by simp [numbers])
  obtain ⟨blur, hblurread, hblurpx⟩ := hpixels v.blur (by simp [numbers])
  refine ⟨selectors, hex, hselectors, hgate, hhex, (ofShadow_key_eq_ok hnumbers hcolor).2
    ⟨fun n hn => (hlegible.numbers n hn).written, x, y, blur, color, hex, selectors, hxread,
      hyread, hblurread, hread, hexOfHsla_reread hcolor hhex hread, hselectors, ?_⟩⟩
  rw [intercalate_eq_css_iff.2 ⟨hxpx, hypx, hblurpx⟩]

omit hcolor hhex in
/-- A legible shadow of finite numbers has no integer that is too long to be written. -/
theorem isWritable_of_isLegible (hlegible : v.IsLegible) : v.IsWritable := by
  have hwritable : ∀ n ∈ v.numbers, (Value.number n).IsWritable := by
    intro n hn
    obtain ⟨_, hx, -⟩ := hnumbers n hn
    exact Number.isWritable_of_toFloat hx
  rw [IsWritable, Value.isWritable_list]
  simp only [values, List.forall_mem_cons, List.not_mem_nil, false_imp_iff, implies_true, and_true]
  exact ⟨hwritable v.x (by simp [numbers]), hwritable v.y (by simp [numbers]),
    hwritable v.blur (by simp [numbers]), (Value.isWritable_normalize _).1 hlegible.color⟩

theorem hasRule_iff : v.HasRule state force className (v.key state) ↔ v.IsLegible :=
  ⟨isLegible_of_hasRule hcolor hhex hnumbers, hasRule_of_isLegible hcolor hhex hnumbers⟩

end

end Shadow.InState

namespace Shadow

variable {free : Document → Value} {s : Shadow}

/-- The section has one key for each of its states and no other, and each key has its rule. -/
def HasRules (s : Shadow) (free : Document → Value) (force : Bool) (className : String) : Prop :=
  ∃ buckets, Keys.ofShadow (s.membersWith free) = .ok buckets
    ∧ (Dict.keys buckets).Nodup
    ∧ (∀ label, label ∈ Dict.keys buckets ↔ ∃ state ∈ s.states, state.name = label)
    ∧ ∀ state ∈ s.states, ∃ key, Dict.get? buckets state.name = some [key]
      ∧ (s.inState free state).HasRule state force className key

def numbers (s : Shadow) : List (InteractionState × Number) :=
  s.x.getD [] ++ s.y.getD [] ++ s.blur.getD []

theorem mem_of_valueIn? {α : Type} {values? : Option (List (InteractionState × α))}
    {state : InteractionState} {a : α} (h : valueIn? values? state = some a) :
    ∃ m ∈ values?.getD [], m.2 = a := by
  rcases Option.or_eq_some_iff.1 h with h | ⟨-, h⟩
  · exact ⟨_, Keys.mem_of_lookup h, rfl⟩
  · exact ⟨_, Keys.mem_of_lookup h, rfl⟩

theorem isFinite_inState (hnumbers : ∀ m ∈ s.numbers, m.2.IsFinite) (state : InteractionState) :
    ∀ n ∈ (s.inState free state).numbers, n.IsFinite := by
  have hvalue : ∀ values? : Option (List (InteractionState × Number)),
      (∀ m ∈ values?.getD [], m.2.IsFinite) → ((valueIn? values? state).getD 0).IsFinite := by
    intro values? hvalues
    cases h : valueIn? values? state with
    | none => exact ⟨_, rfl, by decide +kernel⟩
    | some n =>
      obtain ⟨m, hm, rfl⟩ := mem_of_valueIn? h
      exact hvalues m hm
  simp only [numbers, List.mem_append, or_imp, forall_and] at hnumbers
  simp only [InState.numbers, List.forall_mem_cons, List.not_mem_nil, false_imp_iff, implies_true,
    and_true]
  exact ⟨hvalue s.x hnumbers.1.1, hvalue s.y hnumbers.1.2, hvalue s.blur hnumbers.2⟩

theorem exists_hexOfHsla_black : ∃ hex, Color.hexOfHsla black = .ok hex :=
  exists_of_isSome_toOption (by decide +kernel)

/-- The color in a state is a list with a hexadecimal form. -/
theorem exists_color_inState (hcolors : ∀ m ∈ s.color.getD [], ∃ items hex,
      free (.list m.2) = .list items ∧ Color.hexOfHsla (.list items) = .ok hex)
    (state : InteractionState) : ∃ items hex, (s.inState free state).color = .list items
      ∧ Color.hexOfHsla (s.inState free state).color = .ok hex := by
  have hcolor : (s.inState free state).color
      = ((valueIn? s.color state).map fun c => free (.list c)).getD black := rfl
  rw [hcolor]
  cases h : valueIn? s.color state with
  | none =>
    obtain ⟨hex, hhex⟩ := exists_hexOfHsla_black
    exact ⟨_, hex, rfl, hhex⟩
  | some c =>
    obtain ⟨m, hm, rfl⟩ := mem_of_valueIn? h
    obtain ⟨items, hex, hfree, hhex⟩ := hcolors m hm
    rw [Option.map_some, Option.getD_some, hfree]
    exact ⟨items, hex, rfl, hhex⟩

theorem hasRules_iff_forall {force : Bool} {className : String} (h : Keys.ShowsColors free s) :
    s.HasRules free force className ↔ ∀ state ∈ s.states,
      (s.inState free state).IsWritable ∧ (s.inState free state).HasRule state force className
        ((s.inState free state).key state) := by
  constructor
  · rintro ⟨buckets', hbuckets', -, -, hrules⟩ state hstate
    have hwritable := Keys.isWritable_of_ofShadow h hbuckets'
    obtain ⟨buckets, hbuckets, -, -, hkeys⟩ := Keys.exists_ofShadow_membersWith h hwritable
    obtain rfl := Except.ok.inj (hbuckets.symm.trans hbuckets')
    obtain ⟨key, hkey, hrule⟩ := hrules state hstate
    rw [hkeys state hstate] at hkey
    obtain rfl := (List.cons.inj (Option.some.inj hkey)).1
    exact ⟨hwritable state hstate, hrule⟩
  · intro hrules
    obtain ⟨buckets, hbuckets, hnodup, hlabels, hkeys⟩ :=
      Keys.exists_ofShadow_membersWith h fun state hstate => (hrules state hstate).1
    exact ⟨buckets, hbuckets, hnodup, hlabels, fun state hstate =>
      ⟨_, hkeys state hstate, (hrules state hstate).2⟩⟩

/-- A section of finite numbers and of colors has a rule for each key iff it is legible in each of
its states. -/
theorem hasRules_iff_isLegible (s : Shadow) (free : Document → Value) (force : Bool)
    (className : String)
    (hnumbers : ∀ m ∈ s.numbers, m.2.IsFinite)
    (hcolors : ∀ m ∈ s.color.getD [], ∃ items hex,
      free (.list m.2) = .list items ∧ Color.hexOfHsla (.list items) = .ok hex) :
    s.HasRules free force className ↔ ∀ state ∈ s.states, (s.inState free state).IsLegible := by
  have hshown : Keys.ShowsColors free s := by
    intro m hm
    obtain ⟨items, hex, hfree, -⟩ := hcolors m hm
    rw [hfree]
    rfl
  rw [hasRules_iff_forall hshown]
  refine forall₂_congr fun state _ => ?_
  obtain ⟨items, hex, hcolor, hhex⟩ := exists_color_inState hcolors state
  have hfinite : ∀ n ∈ (s.inState free state).numbers, n.IsFinite :=
    isFinite_inState hnumbers state
  rw [InState.hasRule_iff hcolor hhex hfinite]
  exact and_iff_right_of_imp (InState.isWritable_of_isLegible hfinite)

/-- A shadow that is nearer under the pointer. -/
def raised : Shadow where
  x := some [(.rest, 10), (.hover, .float 0.5)]
  y := some [(.rest, 15)]
  blur := none
  color := some [(.rest, [.scalar (.number 0), .scalar (.number 0), .scalar (.number 0),
    .scalar (.number (.float 0.3))])]

theorem hasRules_raised : raised.HasRules Document.numeralsOnly false "a" := by
  have hten : (Number.int 10).IsFinite ∧ (Number.int 10).IsKept :=
    ⟨exists_of_toOption_map (by decide +kernel), Number.isKept_int (by decide +kernel)⟩
  have hfifteen : (Number.int 15).IsFinite ∧ (Number.int 15).IsKept :=
    ⟨exists_of_toOption_map (by decide +kernel), Number.isKept_int (by decide +kernel)⟩
  have hhalf : (Number.float 0.5).IsFinite ∧ (Number.float 0.5).IsKept :=
    ⟨exists_of_toOption_map (by decide +kernel), Number.isKept_float (by decide +kernel)⟩
  have hnone : (Number.int 0).IsKept := Number.isKept_int (by decide +kernel)
  refine (hasRules_iff_isLegible raised Document.numeralsOnly false "a" ?_ ?_).2 ?_
  · simp only [numbers, raised, Option.getD_some, Option.getD_none, List.cons_append,
      List.nil_append, List.forall_mem_cons, List.not_mem_nil, false_imp_iff, implies_true,
      and_true]
    exact ⟨hten.1, hhalf.1, hfifteen.1⟩
  · simp only [raised, Option.getD_some, List.forall_mem_cons, List.not_mem_nil, false_imp_iff,
      implies_true, and_true]
    obtain ⟨hex, hhex⟩ := exists_of_isSome_toOption
      (x := Color.hexOfHsla (.list [.number 0, .number 0, .number 0, .number (.float 0.3)]))
      (by decide +kernel)
    exact ⟨_, hex, by rfl, hhex⟩
  · have hstates : raised.states = [.rest, .rest, .hover, .rest, .rest] := rfl
    have hrest : (raised.inState Document.numeralsOnly .rest).IsLegible := by
      refine ⟨?_, by decide +kernel⟩
      change ∀ n ∈ [Number.int 10, .int 15, .int 0], n.IsKept
      simp [hten.2, hfifteen.2, hnone]
    have hhover : (raised.inState Document.numeralsOnly .hover).IsLegible := by
      refine ⟨?_, by decide +kernel⟩
      change ∀ n ∈ [Number.float 0.5, .int 15, .int 0], n.IsKept
      simp [hhalf.2, hfifteen.2, hnone]
    rw [hstates]
    simp [hrest, hhover]

/-- A shadow whose one offset is written with an exponent. -/
def faint : Shadow where
  x := some [(.rest, .float 0.00001)]
  y := none
  blur := none
  color := none

/-- A section of a finite number may pass its check while its key has no rule. -/
theorem not_hasRules_faint :
    Check.shadow (.map [(.text "x", .map [(.text "rest", .scalar (.number (.float 0.00001)))])])
        = .valid faint
      ∧ (∀ m ∈ faint.numbers, m.2.IsFinite) ∧ faint.color = none
      ∧ ¬faint.HasRules Document.numeralsOnly false "a" := by
  have hnumbers : ∀ m ∈ faint.numbers, m.2.IsFinite := by
    have hfinite : (Number.float 0.00001).IsFinite := exists_of_toOption_map (by decide +kernel)
    simpa [numbers, faint] using hfinite
  refine ⟨rfl, hnumbers, rfl, fun h => ?_⟩
  obtain ⟨-, hrule⟩ := (hasRules_iff_forall (by simp [Keys.ShowsColors, faint])).1 h .rest
    List.mem_cons_self
  obtain ⟨items, hex, hcolor, hhex⟩ :=
    @exists_color_inState Document.numeralsOnly faint (by simp [faint]) .rest
  have hlegible := (InState.hasRule_iff hcolor hhex (isFinite_inState hnumbers .rest)).1 hrule
  exact (hlegible.numbers (.float 0.00001) List.mem_cons_self).written (by decide +kernel)

end Shadow
end AtomicCss

import AtomicCss.Css.Stylesheet
import AtomicCss.Proofs.Gating
import AtomicCss.Proofs.Numerals
import AtomicCss.Proofs.Order

/-!
# Rules of the numbers of a scale

A number of a scale has a key of its own for every size and breakpoint. If the key has a rule, the
rule is on the bare class of the key, sets the length of the number, and holds from the width of the
breakpoint on.
-/
namespace AtomicCss

namespace Keys

/-- The key of a number for all sizes and widths. -/
def plainKey (p : ScaleProperty) (n : Number) : String :=
  p.name ++ ("__" ++ StyleKey.valueText (.number n))

/-- The key of a number for a size from a breakpoint on. -/
def widthKey (p : ScaleProperty) (size breakpoint : String) (n : Number) : String :=
  if breakpoint = allBreakpoints then plainKey p n
  else p.name ++ StyleKey.sizePart size (some breakpoint)
    ++ ("__" ++ StyleKey.valueText (.number n))

theorem widthKey_all (p : ScaleProperty) (size : String) (n : Number) :
    widthKey p size allBreakpoints n = plainKey p n := if_pos rfl

theorem eq_of_responsive_number {p : ScaleProperty} {n : Number} {keys : List SizedKey}
    (h : responsive p.name {} (Scale.number n).toValue = .ok keys) :
    keys = [(allSizes, plainKey p n)] := by
  simp only [Scale.toValue, responsive, bind_eq_ok, pure_eq_ok, sizedKey_eq_ok,
    StyleKey.encode_stateless, Except.ok.injEq] at h
  obtain ⟨⟨_, _⟩, ⟨rfl, rfl, -⟩, rfl⟩ := h
  rfl

theorem size_ne {size : String} (h : size ∈ elementSizes) : size ≠ "" ∧ size ≠ allSizes := by
  have hall : ∀ size ∈ elementSizes, size ≠ "" ∧ size ≠ allSizes := by decide
  exact hall size h

theorem eq_of_keysAtSize_widths {p : ScaleProperty} {size : String} (hsize : size ∈ elementSizes)
    {numbers : Dict Number} {keys : List SizedKey}
    (h : keysAtSize p.name {} size (SizeScale.widths numbers).toValue = .ok keys) :
    keys = numbers.map fun (breakpoint, n) => (size, widthKey p size breakpoint n) := by
  obtain ⟨hne, hall⟩ := size_ne hsize
  rw [SizeScale.toValue, keysAtSize, mapM_map_ok] at h
  rw [← keys.map_id]
  refine map_of_mapM_ok h ?_
  rintro ⟨breakpoint, n⟩ k hkey
  simp only [beq_eq_false_iff_ne.2 hall, Bool.or_false, beq_iff_eq] at hkey
  suffices hparts : k.1 = size ∧ k.2 = widthKey p size breakpoint n from
    Prod.ext hparts.1 hparts.2
  rw [widthKey]
  split at hkey
  · next hwidths =>
    obtain ⟨hlabel, hkey, -⟩ := sizedKey_eq_ok.1 hkey
    rw [StyleKey.encode_stateless, Except.ok.injEq] at hkey
    rw [if_pos hwidths]
    exact ⟨hlabel, hkey.symm⟩
  · next hwidths =>
    obtain ⟨hlabel, hkey, -⟩ := sizedKey_eq_ok.1 hkey
    rw [StyleKey.encode_sized _ _ hne, Except.ok.injEq] at hkey
    rw [if_neg hwidths]
    exact ⟨hlabel, hkey.symm⟩

theorem exists_keysAtSize_of_responsive {p : ScaleProperty} {sizes : Dict SizeScale}
    {keys : List SizedKey} (h : responsive p.name {} (Scale.sizes sizes).toValue = .ok keys)
    {size : String} {scale : SizeScale} (hm : (size, scale) ∈ sizes) :
    ∃ part, keysAtSize p.name {} size scale.toValue = .ok part ∧ ∀ k ∈ part, k ∈ keys := by
  simp only [Scale.toValue, responsive, bind_eq_ok, pure_eq_ok] at h
  obtain ⟨parts, hparts, rfl⟩ := h
  obtain ⟨part, hpart, hof⟩ := exists_of_mapM_ok hparts
    (List.mem_map.2 ⟨(size, scale), hm, rfl⟩)
  exact ⟨part, hof, fun k hk => List.mem_flatten.2 ⟨part, hpart, hk⟩⟩

theorem mem_responsive_sizes {p : ScaleProperty} {sizes : Dict SizeScale} {keys : List SizedKey}
    (h : responsive p.name {} (Scale.sizes sizes).toValue = .ok keys) {size : String}
    {numbers : Dict Number} (hm : (size, .widths numbers) ∈ sizes) (hsize : size ∈ elementSizes)
    {breakpoint : String} {n : Number} (hn : (breakpoint, n) ∈ numbers) :
    (size, widthKey p size breakpoint n) ∈ keys := by
  obtain ⟨part, hof, hpart⟩ := exists_keysAtSize_of_responsive h hm
  refine hpart _ ?_
  rw [eq_of_keysAtSize_widths hsize hof]
  exact List.mem_map.2 ⟨(breakpoint, n), hn, rfl⟩

end Keys

namespace StyleKey

/-- A value that is cut off too early is no numeral. -/
theorem cut_value {front value a b : List Char}
    (h : Text.cut ['_', '_'] (front ++ '_' :: '_' :: value) = some (a, b)) :
    a = front ∧ b = value ∨ Numeral.Ungrouped b := by
  induction front generalizing a with
  | nil =>
    rw [List.nil_append] at h
    have hself := Text.cut_self (List.cons_ne_nil '_' ['_']) value
    obtain ⟨rfl, rfl⟩ := Prod.mk.inj (Option.some.inj (h.symm.trans hself))
    exact .inl ⟨rfl, rfl⟩
  | cons c front ih =>
    rw [List.cons_append, Text.cut] at h
    split at h
    · next rest hrest =>
      cases h
      have hrest := Text.after?_eq_some.1 hrest
      cases front with
      | nil =>
        simp only [List.nil_append, List.cons_append, List.cons.injEq] at hrest
        rw [← hrest.2.2]
        exact .inr (.leading value)
      | cons d front =>
        simp only [List.nil_append, List.cons_append, List.cons.injEq] at hrest
        rw [← hrest.2.2]
        exact .inr (.double front value)
    · obtain ⟨⟨a', b'⟩, hcut, heq⟩ := Option.map_eq_some_iff.1 h
      obtain ⟨rfl, rfl⟩ := Prod.mk.inj heq
      exact (ih hcut).imp (fun h => ⟨by rw [h.1], h.2⟩) id

theorem cutString_value {front value a b : String}
    (h : cutString "__" (front ++ ("__" ++ value)) = some (a, b)) :
    a = front ∧ b = value ∨ Numeral.Ungrouped b.toList := by
  simp only [cutString, Option.map_eq_some_iff, Prod.exists, Prod.mk.injEq] at h
  obtain ⟨a', b', hcut, rfl, rfl⟩ := h
  have htext : (front ++ ("__" ++ value)).toList = front.toList ++ '_' :: '_' :: value.toList := by
    simp
  rw [htext] at hcut
  rcases cut_value hcut with ⟨rfl, rfl⟩ | hb
  · exact .inl ⟨String.ofList_toList, String.ofList_toList⟩
  · exact .inr (by simpa using hb)

def writtenBreakpoint (breakpoint : String) : Option String :=
  if breakpoint = allBreakpoints then none else Location.known (some breakpoint)

/-- A key with a size only. -/
theorem decode_size {property : String} (h : IsPlain property) {size : String}
    (hsize : size ∈ elementSizes) (value : String) :
    decode (property ++ ("++" ++ (size ++ ("__" ++ value)))) = .ok
      { property, stateTokens := [], isRef := false, size := Location.known (some size)
        breakpoint := none, value, rawState := none } := by
  have hcut : cutString "__" (size ++ ("__" ++ value)) = some (size, value) :=
    cutString_append_self ['_'] (notMem_of_isSizeToken (isSizeToken_of_mem hsize)).2 _
  rw [decode_sized h, hcut]
  simp only [sizeAndBreakpoint_size (isSizeToken_of_mem hsize)]

/-- A key with a size and a breakpoint. If the breakpoint itself is cut, the value that is read is
no numeral. -/
theorem decode_sizeAndBreakpoint {property : String} (h : IsPlain property) {size : String}
    (hsize : size ∈ elementSizes) {breakpoint value : String} {k : Decoded}
    (hk : decode (property ++ ("++" ++ ((size ++ "::") ++ (breakpoint ++ ("__" ++ value)))))
      = .ok k)
    (hvalue : ¬Numeral.Ungrouped k.value.toList) :
    k = { property, stateTokens := [], isRef := false, size := Location.known (some size)
          breakpoint := some breakpoint, value, rawState := none } := by
  have hcut : cutString "__" ((size ++ "::") ++ (breakpoint ++ ("__" ++ value)))
      = (cutString "__" (breakpoint ++ ("__" ++ value))).map
        fun m => ((size ++ "::") ++ m.1, m.2) :=
    cutString_append ['_'] (notMem_of_isSizeToken (isSizeToken_of_mem hsize)).1 _
  rw [decode_sized h, hcut] at hk
  cases hread : cutString "__" (breakpoint ++ ("__" ++ value)) with
  | none => simp [hread] at hk
  | some m =>
    obtain ⟨front, value'⟩ := m
    simp only [hread, Option.map_some] at hk
    cases hk
    rcases cutString_value hread with ⟨rfl, rfl⟩ | hbroken
    · rw [sizeAndBreakpoint_append (isSizeToken_of_mem hsize)]
    · exact absurd hbroken hvalue

/-- A key of a number whose value is read as a number is read as it was written. -/
theorem decode_widthKey {p : ScaleProperty} {size breakpoint : String} (hsize : size ∈ elementSizes)
    {n : Number} {k : Decoded} (h : decode (Keys.widthKey p size breakpoint n) = .ok k)
    (hvalue : ¬Numeral.Ungrouped k.value.toList) :
    k.property = p.name ∧ k.stateTokens = [] ∧ k.isRef = false ∧ k.value = valueText (.number n)
      ∧ k.breakpoint = writtenBreakpoint breakpoint := by
  have hplain : IsPlain p.name := by cases p <;> decide
  rw [Keys.widthKey] at h
  split at h
  · next hall =>
    rw [Keys.plainKey, decode_stateless hplain] at h
    cases h
    exact ⟨rfl, rfl, rfl, rfl, (if_pos hall).symm⟩
  · next hall =>
    rw [writtenBreakpoint, if_neg hall]
    cases hknown : Location.known (some breakpoint) with
    | none =>
      have hkey : p.name ++ sizePart size (some breakpoint) ++ ("__" ++ valueText (.number n))
          = p.name ++ ("++" ++ (size ++ ("__" ++ valueText (.number n)))) := by
        simp [sizePart, hknown, String.append_assoc]
      rw [hkey, decode_size hplain hsize] at h
      cases h
      exact ⟨rfl, rfl, rfl, rfl, rfl⟩
    | some b =>
      obtain rfl : breakpoint = b := Option.some.inj (Option.filter_eq_some_iff.1 hknown).1
      have hkey : p.name ++ sizePart size (some breakpoint) ++ ("__" ++ valueText (.number n))
          = p.name ++ ("++" ++ ((size ++ "::")
            ++ (breakpoint ++ ("__" ++ valueText (.number n))))) := by
        simp [sizePart, hknown, String.append_assoc]
      rw [hkey] at h
      rw [decode_sizeAndBreakpoint hplain hsize h hvalue]
      exact ⟨rfl, rfl, rfl, rfl, rfl⟩

theorem known_writtenBreakpoint (breakpoint : String) :
    Location.known (writtenBreakpoint breakpoint) = writtenBreakpoint breakpoint := by
  rw [writtenBreakpoint]
  split
  · rfl
  · simp [Location.known]

end StyleKey

namespace Rule

def lengthOf (p : ScaleProperty) (n : Number) : Option String :=
  let value := StyleKey.valueText (.number n)
  match p with
  | .borderRadius => (radius? value).map pixels
  | p => (Numeral.float? value.toList).bind fun x => (scaleLength p x).toOption

/-- The width from which on the rule of a number for a breakpoint holds. -/
def writtenWidth (t : BreakpointTable) (breakpoint : String) : WithBot Int :=
  match (StyleKey.writtenBreakpoint breakpoint).bind t.get? with
  | some width => width
  | none => ⊥

theorem mediaQuery_eq_ok {t : BreakpointTable} {breakpoint : String} {media : Option String}
    (h : mediaQuery t.queries (StyleKey.writtenBreakpoint breakpoint) = .ok media) :
    media = mediaFrom (writtenWidth t breakpoint) := by
  rw [mediaQuery_queries_eq_ok, StyleKey.known_writtenBreakpoint] at h
  rw [writtenWidth]
  rcases h with ⟨hnone, rfl⟩ | ⟨token, width, htoken, hwidth, -, rfl⟩
  · rw [hnone]
    rfl
  · rw [htoken, Option.bind_some, hwidth]
    rfl

theorem startsWith_widthKey (p : ScaleProperty) (size breakpoint : String) (n : Number) :
    (Keys.widthKey p size breakpoint n).startsWith p.name = true := by
  rw [String.startsWith_string_iff, Keys.widthKey]
  split
  · simp [Keys.plainKey]
  · simp [List.append_assoc]

variable {o : RuleOptions} {t : BreakpointTable} {p : ScaleProperty} {size : String}
  {breakpoint className : String} {n : Number} {r : Rule}

/-- The rule of a number sets its length on the bare class of the key from the width of the
breakpoint on. -/
theorem ofKey_widthKey (ho : o.queries = t.queries) (hsize : size ∈ elementSizes)
    (h : ofKey o (Keys.widthKey p size breakpoint n) className = .ok r) :
    ∃ css, lengthOf p n = some css
      ∧ r = ⟨bodyOf (bare className) p.css css, mediaFrom (writtenWidth t breakpoint)⟩ := by
  have hstart := startsWith_widthKey p size breakpoint n
  by_cases hp : p = .borderRadius
  · subst hp
    rw [ofKey_radius hstart] at h
    obtain ⟨k, x, states, selectors, hk, -, hx, hstates, hselectors, hmedia, hbody⟩ := ofRadius_ok h
    obtain ⟨-, htokens, href, hvalue, hbreakpoint⟩ :=
      StyleKey.decode_widthKey hsize hk fun hu => by simp [hu.radius?_eq_none] at hx
    rw [htokens] at hstates
    cases hstates
    rw [href] at hselectors
    cases hselectors
    rw [hbreakpoint, ho] at hmedia
    rw [hvalue] at hx
    exact ⟨pixels x, by simp [lengthOf, hx], congrArg₂ Rule.mk hbody (mediaQuery_eq_ok hmedia)⟩
  · rw [ofKey_scale hp hstart] at h
    obtain ⟨k, p', x, css, hk, hp', -, hx, hcss, hmedia, hbody⟩ := ofScale_ok h
    obtain ⟨hproperty, -, -, hvalue, hbreakpoint⟩ :=
      StyleKey.decode_widthKey hsize hk fun hu => by simp [hu.float?_eq_none] at hx
    have hname : ∀ p : ScaleProperty, p ≠ .borderRadius → scaleProperty? p.name = some p := by
      intro p hp
      cases p
      case borderRadius => exact absurd rfl hp
      all_goals decide
    rw [hproperty, hname p hp] at hp'
    cases hp'
    rw [hbreakpoint, ho] at hmedia
    rw [hvalue] at hx
    refine ⟨css, ?_, congrArg₂ Rule.mk hbody (mediaQuery_eq_ok hmedia)⟩
    cases p
    case borderRadius => exact absurd rfl hp
    all_goals simp [lengthOf, hx, hcss, Except.toOption]

end Rule
end AtomicCss

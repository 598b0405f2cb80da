import AtomicCss.Proofs.Checked
import AtomicCss.Proofs.FloatTexts
import AtomicCss.Proofs.Order
import AtomicCss.Proofs.RoundTrip
import AtomicCss.Proofs.RoundingOrder
import AtomicCss.Proofs.RuleFailures

/-!
# Every number of a scale has its key and its rule

A section of scales gives numbers to properties, each for all sizes, for one size, or for one size
from a breakpoint on. Each number becomes one key in the bucket of its size, in the order in which
they are given, and the key has a rule: on the bare class, with the length of the number, and under
the media query of its breakpoint. A number for all sizes keeps neither its size nor its breakpoint.
-/
namespace AtomicCss

/-- A number of a section of scales, with the size and the breakpoint it is given for. -/
structure ScaleNumber where
  property : ScaleProperty
  size : Option String := none
  breakpoint : Option String := none
  number : Number

namespace ScaleNumber

def bucket (a : ScaleNumber) : String := a.size.getD allSizes

def keySize (a : ScaleNumber) : Option String :=
  if a.breakpoint = some allBreakpoints then none else a.size.bind Keys.writtenSize

/-- The breakpoint that is written into the key, and stands in its rule. -/
def keyBreakpoint (a : ScaleNumber) : Option String := a.keySize.bind fun _ => a.breakpoint

def coordinates (a : ScaleNumber) : StyleKey.Coordinates where
  property := a.property.name
  value := .number a.number
  size := a.keySize
  breakpoint := a.keyBreakpoint

def key (a : ScaleNumber) : String :=
  a.property.name ++ a.coordinates.sizeText ++ ("__" ++ StyleKey.valueText (.number a.number))

/-- The media query of the number's rule: only a number for one size and from one breakpoint on has
one. -/
def media (t : BreakpointTable) (a : ScaleNumber) : Option String :=
  match a.size, a.breakpoint with
  | some size, some breakpoint =>
    if size = allSizes ∨ breakpoint = allBreakpoints then none
    else (t.get? breakpoint).map fun width => MediaQueries.fromWidth (Number.intText width)
  | _, _ => none

def length (a : ScaleNumber) : Except NumberError String := do
  let x ← a.number.toFloat
  if a.property = .textSize then Length.rem (Number.float x) Length.rootPixels
  else pure (Length.px (Number.float x))

end ScaleNumber

def SizeScale.numbers (p : ScaleProperty) (size : String) : SizeScale → List ScaleNumber
  | .number n => [{ property := p, size, number := n }]
  | .widths numbers =>
    numbers.map fun (breakpoint, n) => { property := p, size, breakpoint, number := n }

def Scale.numbers (p : ScaleProperty) : Scale → List ScaleNumber
  | .number n => [{ property := p, number := n }]
  | .sizes scales => scales.flatMap fun (size, s) => s.numbers p size

def Scales.numbers (s : Scales) : List ScaleNumber := s.flatMap fun (p, scale) => scale.numbers p

def Scale.HasSizeTokens : Scale → Prop
  | .number _ => True
  | .sizes scales => ∀ m ∈ scales, isSizeToken m.1 = true

/-- The sizes of an accepted section are size tokens. -/
theorem hasSizeTokens_of_valid {d : Document} {s : Scales} (h : Check.scales d = .valid s) :
    ∀ m ∈ s, m.2.HasSizeTokens := by
  have hnone : Check.brokenScaleRule? s = none := (Checked.andThen_rule_eq_valid.1 h).2
  rintro ⟨p, scale⟩ hm
  cases scale with
  | number n => trivial
  | sizes scales =>
    have hfind := List.findSome?_eq_none_iff.1 hnone _ hm
    intro m hsize
    simpa using List.find?_eq_none.1 (Option.map_eq_none_iff.1 hfind) m hsize

theorem ScaleNumber.size_of_keySize (a : ScaleNumber) {size : String} (h : a.keySize = some size) :
    a.size = some size ∧ size ≠ allSizes := by
  rw [keySize] at h
  split at h
  · cases h
  · obtain ⟨size', hsize, hwritten⟩ := Option.bind_eq_some_iff.1 h
    rw [Keys.writtenSize] at hwritten
    split at hwritten
    · cases hwritten
    · next hne =>
      cases hwritten
      exact ⟨hsize, by simpa using hne⟩

theorem ScaleNumber.media_eq (t : BreakpointTable) (a : ScaleNumber) : a.media t
    = (a.keyBreakpoint.bind t.get?).map fun width =>
      MediaQueries.fromWidth (Number.intText width) := by
  obtain ⟨p, size?, breakpoint?, n⟩ := a
  cases size? with
  | none =>
    rw [keyBreakpoint, keySize]
    split <;> rfl
  | some size =>
    cases breakpoint? with
    | none =>
      rw [keyBreakpoint]
      cases keySize _ <;> rfl
    | some breakpoint =>
      by_cases hbreakpoint : breakpoint = allBreakpoints
      · simp [media, keyBreakpoint, keySize, hbreakpoint]
      · by_cases hall : size = allSizes
        · simp [media, keyBreakpoint, keySize, hbreakpoint, hall, Keys.writtenSize]
        · simp [media, keyBreakpoint, keySize, hbreakpoint, hall, Keys.writtenSize]

theorem ScaleNumber.length_eq_ok {a : ScaleNumber} {x : Float} (hx : a.number.toFloat = .ok x)
    {css : String} (hcss : Rule.scaleLength a.property x = .ok css) : a.length = .ok css := by
  refine bind_eq_ok.2 ⟨x, hx, ?_⟩
  generalize a.property = p at hcss
  cases p <;> exact hcss

theorem SizeScale.size_of_mem_numbers {p : ScaleProperty} {size : String} {s : SizeScale}
    {a : ScaleNumber} (h : a ∈ s.numbers p size) : a.property = p ∧ a.size = some size := by
  cases s with
  | number n =>
    rw [List.mem_singleton.1 h]
    exact ⟨rfl, rfl⟩
  | widths numbers =>
    obtain ⟨_, -, rfl⟩ := List.mem_map.1 h
    exact ⟨rfl, rfl⟩

theorem Scale.isSizeToken_of_mem_numbers {p : ScaleProperty} {s : Scale} (hs : s.HasSizeTokens)
    {a : ScaleNumber} (h : a ∈ s.numbers p) {size : String} (hsize : a.size = some size) :
    isSizeToken size = true := by
  cases s with
  | number n =>
    rw [List.mem_singleton.1 h] at hsize
    cases hsize
  | sizes scales =>
    obtain ⟨m, hm, ha⟩ := List.mem_flatMap.1 h
    rw [(SizeScale.size_of_mem_numbers ha).2] at hsize
    exact Option.some.inj hsize ▸ hs m hm

namespace Keys

variable {p : ScaleProperty}

theorem encode_coordinates {a : ScaleNumber}
    (hsize : ∀ size, a.size = some size → isSizeToken size = true) :
    StyleKey.encode a.coordinates = .ok a.key := by
  rw [ScaleNumber.key]
  cases hkey : a.keySize with
  | none =>
    have hc : a.coordinates = { property := a.property.name, value := .number a.number } := by
      simp [ScaleNumber.coordinates, ScaleNumber.keyBreakpoint, hkey]
    rw [hc, StyleKey.encode_stateless, StyleKey.Coordinates.sizeText, String.append_empty]
  | some size =>
    have hc : a.coordinates = { property := a.property.name, value := .number a.number
                                size := some size, breakpoint := a.breakpoint } := by
      simp [ScaleNumber.coordinates, ScaleNumber.keyBreakpoint, hkey]
    have hne : size ≠ "" := by
      rintro rfl
      exact absurd (hsize "" (a.size_of_keySize hkey).1) (by decide)
    rw [hc, StyleKey.encode_sized _ _ hne]
    rfl

theorem keysAtSize_toValue {size : String} (hsize : isSizeToken size = true) {s : SizeScale}
    (hs : ∀ a ∈ s.numbers p size, (Value.number a.number).IsWritable) :
    keysAtSize p.name {} size s.toValue
      = .ok ((s.numbers p size).map fun a => (a.bucket, a.key)) := by
  have hkey : ∀ breakpoint n, StyleKey.encode
      (ScaleNumber.coordinates { property := p, size, breakpoint, number := n })
        = .ok (ScaleNumber.key { property := p, size, breakpoint, number := n }) :=
    fun _ _ => encode_coordinates fun _ h => Option.some.inj h ▸ hsize
  cases s with
  | number n =>
    have hwritten : ScaleNumber.keySize { property := p, size, number := n }
        = writtenSize size := rfl
    have hsized : sizedKey p.name {} size (.number n) (writtenSize size) none
        = .ok (size, ScaleNumber.key { property := p, size, number := n }) := by
      refine sizedKey_eq_ok.2 ⟨rfl, ?_, hs _ List.mem_cons_self⟩
      have hcoordinates := hkey none n
      rw [ScaleNumber.coordinates, ScaleNumber.keyBreakpoint, hwritten] at hcoordinates
      simpa using hcoordinates
    rw [SizeScale.toValue, keysAtSize, hsized]
    rfl
  | widths numbers =>
    rw [SizeScale.toValue, keysAtSize, SizeScale.numbers, List.map_map, mapM_eq_ok,
      List.forall₂_map_left_iff, List.forall₂_map_right_iff, List.forall₂_same]
    intro m hm
    have hwritable := hs _ (List.mem_map_of_mem hm)
    have hcoordinates := hkey (some m.1) m.2
    rw [ScaleNumber.coordinates, ScaleNumber.keyBreakpoint] at hcoordinates
    dsimp only
    split
    · next hsizeless =>
      have hnone : ScaleNumber.keySize
          { property := p, size, breakpoint := m.1, number := m.2 } = none := by
        rcases Bool.or_eq_true_iff.1 hsizeless with hall | hall
        · simp [ScaleNumber.keySize, beq_iff_eq.1 hall]
        · simp [ScaleNumber.keySize, writtenSize, hall]
      rw [hnone] at hcoordinates
      exact sizedKey_eq_ok.2 ⟨rfl, hcoordinates, hwritable⟩
    · next hsized =>
      rw [Bool.or_eq_true_iff, not_or, beq_iff_eq, beq_iff_eq] at hsized
      have hsome : ScaleNumber.keySize
          { property := p, size, breakpoint := m.1, number := m.2 } = some size := by
        simp [ScaleNumber.keySize, writtenSize, hsized]
      rw [hsome] at hcoordinates
      exact sizedKey_eq_ok.2 ⟨rfl, hcoordinates, hwritable⟩

theorem responsive_toValue {s : Scale} (hs : s.HasSizeTokens)
    (hwritable : ∀ a ∈ s.numbers p, (Value.number a.number).IsWritable) :
    responsive p.name {} s.toValue = .ok ((s.numbers p).map fun a => (a.bucket, a.key)) := by
  cases s with
  | number n =>
    have hsized : sizedKey p.name {} allSizes (.number n) none none
        = .ok (allSizes, ScaleNumber.key { property := p, number := n }) :=
      sizedKey_eq_ok.2 ⟨rfl, encode_coordinates (a := { property := p, number := n }) nofun,
        hwritable _ List.mem_cons_self⟩
    rw [Scale.toValue, responsive, hsized]
    rfl
  | sizes scales =>
    have hparts : (scales.map fun m => (m.1, m.2.toValue)).mapM
          (fun m => keysAtSize p.name {} m.1 m.2)
        = .ok (scales.map fun m => (m.2.numbers p m.1).map fun a => (a.bucket, a.key)) := by
      rw [mapM_eq_ok, List.forall₂_map_left_iff, List.forall₂_map_right_iff, List.forall₂_same]
      exact fun m hm => keysAtSize_toValue (hs m hm) fun a ha =>
        hwritable a (List.mem_flatMap_of_mem hm ha)
    refine bind_eq_ok.2 ⟨_, hparts, ?_⟩
    rw [pure_eq_ok, Scale.numbers, List.map_flatMap, List.flatMap_def]

/-- The keys of the scales of a section, one after the other. -/
theorem mapM_responsive {s : Scales} (hs : ∀ m ∈ s, m.2.HasSizeTokens)
    (hwritable : ∀ a ∈ s.numbers, (Value.number a.number).IsWritable) :
    s.mapM (fun m => responsive m.1.name {} m.2.toValue)
      = .ok (s.map fun m => (m.2.numbers m.1).map fun a => (a.bucket, a.key)) := by
  rw [mapM_eq_ok, List.forall₂_map_right_iff, List.forall₂_same]
  exact fun m hm => responsive_toValue (hs m hm) fun a ha =>
    hwritable a (List.mem_flatMap_of_mem hm ha)

/-- The keys of a section of scales: the keys of its numbers, each in the bucket of its size. -/
theorem ofScales_members {s : Scales} (hs : ∀ m ∈ s, m.2.HasSizeTokens)
    (hwritable : ∀ a ∈ s.numbers, (Value.number a.number).IsWritable) :
    ofScales s.members = .ok (file (s.numbers.map fun a => (a.bucket, a.key)) []) := by
  refine bind_eq_ok.2 ⟨_, mapM_map_ok.2 (mapM_responsive hs hwritable), ?_⟩
  rw [pure_eq_ok, Scales.numbers, List.map_flatMap, List.flatMap_def]

theorem getD_file (keys : List (String × String)) (label : String) :
    Dict.getD (file keys []) label [] = (keys.filter (·.1 = label)).map (·.2) := by
  rw [file_eq, Dict.getD_foldl_append, List.filter_map, List.flatMap_map]
  exact List.map_eq_flatMap.symm

end Keys

/-- What is asked of a number: its size is a size token, it has a finite float, and the breakpoint
in its key is told apart from what follows it and has a width that can be written. -/
structure ScaleNumber.IsSound (t : BreakpointTable) (a : ScaleNumber) : Prop where
  size : ∀ size, a.size = some size → isSizeToken size = true
  breakpoint : ∀ b, a.keyBreakpoint = some b →
    StyleKey.IsBreakpoint b ∧ ∃ width ∈ t.get? b, Numeral.IsShort width
  finite : ∃ x, a.number.toFloat = .ok x ∧ x.isFinite = true

namespace ScaleNumber

variable {t : BreakpointTable} {a : ScaleNumber} (ha : a.IsSound t)
include ha

theorem inVocabulary_coordinates : a.coordinates.InVocabulary where
  property := by
    have hall : ∀ p : ScaleProperty, p.name ∈ StyleKey.propertyNames := by
      intro p
      cases p <;> decide
    exact hall a.property
  state := nofun
  size size h := ha.size size (a.size_of_keySize h).1
  breakpoint b h := (ha.breakpoint b h).1

theorem decode_key : StyleKey.decode a.key = .ok
    { property := a.property.name, stateTokens := [], isRef := false, size := a.keySize
      breakpoint := a.keyBreakpoint, value := a.number.normalize.text, rawState := none } := by
  have hread := StyleKey.Coordinates.decode_of_encode (inVocabulary_coordinates ha)
    (Keys.encode_coordinates ha.size)
  have hbreakpoint : a.coordinates.sizedBreakpoint = a.keyBreakpoint := by
    change (a.keySize.bind fun _ => a.keyBreakpoint) = a.keyBreakpoint
    rw [keyBreakpoint]
    cases a.keySize <;> rfl
  have href : a.coordinates.isReference = false := Bool.false_and _
  rw [hread, StyleKey.Coordinates.decoded, hbreakpoint, href]
  rfl

theorem startsWith_key : a.key.startsWith a.property.name = true :=
  StyleKey.startsWith_of_encode (Keys.encode_coordinates ha.size)

theorem mediaQuery_keyBreakpoint :
    Rule.mediaQuery t.queries a.keyBreakpoint = .ok (a.media t) := by
  rw [Rule.mediaQuery, media_eq]
  cases hb : a.keyBreakpoint with
  | none => rfl
  | some b =>
    obtain ⟨hbreakpoint, width, hwidth, hshort⟩ := ha.breakpoint b hb
    have hknown : Location.known (some b) = some b := by simp [Location.known, hbreakpoint.1]
    rw [Option.mem_def] at hwidth
    simp only [hknown, BreakpointTable.get?_queries, Option.bind_some, hwidth, Option.map_some,
      Number.intText?, if_pos hshort]

variable {o : RuleOptions} (ho : o.queries = t.queries) {y : Float}
  (hy : Numeral.float? a.number.normalize.text.toList = some y) (hfinite : y.isFinite = true)
include ho hy hfinite

theorem ofRadius_key (className : String) (hp : a.property = .borderRadius) :
    Rule.ofRadius o a.key className
      = .ok ⟨Rule.bodyOf (Rule.bare className) a.property.css (Rule.pixels y), a.media t⟩ := by
  have hsize : ∀ size, Location.known a.keySize = some size → isSizeToken size = true := by
    intro size h
    exact ha.size size (a.size_of_keySize (Option.filter_eq_some_iff.1 h).1).1
  have hmedia := mediaQuery_keyBreakpoint ha
  rw [← ho] at hmedia
  refine bind_eq_ok.2 ⟨_, mapError_eq_ok.2 (decode_key ha), ?_⟩
  refine bind_eq_ok.2 ⟨(), require_eq_ok.2 (by rw [hp]; exact beq_self_eq_true _), ?_⟩
  refine bind_eq_ok.2 ⟨y, given_eq_ok.2 (Rule.radius?_text hy hfinite), ?_⟩
  refine bind_eq_ok.2 ⟨(), requireSize_eq_ok.2 hsize, ?_⟩
  refine bind_eq_ok.2 ⟨[], rfl, bind_eq_ok.2 ⟨Rule.bare className, rfl, ?_⟩⟩
  refine bind_eq_ok.2 ⟨_, hmedia, ?_⟩
  rw [hp]
  rfl

theorem ofScale_key (className : String) (hp : a.property ≠ .borderRadius) {css : String}
    (hcss : Rule.scaleLength a.property y = .ok css) :
    Rule.ofScale o.queries a.key className
      = .ok ⟨Rule.bodyOf (Rule.bare className) a.property.css css, a.media t⟩ := by
  have hsize : ∀ size, a.keySize = some size → elementSizes.contains size = true := by
    intro size h
    obtain ⟨hsize, hall⟩ := a.size_of_keySize h
    have hmem := StyleKey.mem_of_isSizeToken (ha.size size hsize)
    exact List.contains_iff_mem.2 ((List.mem_cons.1 hmem).resolve_left hall)
  have hproperty : Rule.scaleProperty? a.property.name = some a.property := by
    generalize a.property = p at hp
    cases p
    case borderRadius => exact absurd rfl hp
    all_goals decide
  have hmark : Text.occurs "__".toList a.key.toList = true := by
    cases hcut : StyleKey.cutString "__" a.key with
    | none =>
      have hread := decode_key ha
      rw [StyleKey.decode, hcut] at hread
      cases hread
    | some m =>
      obtain ⟨_, hm, -⟩ := Option.map_eq_some_iff.1 hcut
      rw [Text.occurs, hm]
      rfl
  have hvalue : (!a.number.normalize.text.isEmpty) = true := by
    cases hempty : a.number.normalize.text.isEmpty with
    | false => rfl
    | true =>
      rw [String.isEmpty_iff.1 hempty] at hy
      cases hy
  have hmedia := mediaQuery_keyBreakpoint ha
  rw [← ho] at hmedia
  refine bind_eq_ok.2 ⟨(), require_eq_ok.2 hmark, ?_⟩
  refine bind_eq_ok.2 ⟨_, mapError_eq_ok.2 (decode_key ha), ?_⟩
  refine bind_eq_ok.2 ⟨a.property, given_eq_ok.2 hproperty, ?_⟩
  refine bind_eq_ok.2 ⟨(), require_eq_ok.2 rfl, ?_⟩
  refine bind_eq_ok.2 ⟨(), requireSize_eq_ok.2 hsize, ?_⟩
  refine bind_eq_ok.2 ⟨(), require_eq_ok.2 hvalue, ?_⟩
  refine bind_eq_ok.2 ⟨y, given_eq_ok.2 (by rw [hy]; exact if_pos hfinite), ?_⟩
  refine bind_eq_ok.2 ⟨css, mapError_eq_ok.2 hcss, ?_⟩
  exact bind_eq_ok.2 ⟨_, hmedia, rfl⟩

omit hy hfinite

/-- The key of a number has a rule: the number's length on the bare class, under the media query of
the number's breakpoint. -/
theorem exists_ofKey (className : String) : ∃ css, a.length = .ok css ∧ Rule.ofKey o a.key className
      = .ok ⟨Rule.bodyOf (Rule.bare className) a.property.css css, a.media t⟩ := by
  obtain ⟨x, hx, hfinite⟩ := ha.finite
  obtain ⟨y, hy, hagrees⟩ := Number.float?_text_normalize hx
  obtain ⟨css, hcss⟩ := Rule.exists_scaleLength a.property x
  have hyfinite := isFinite_of_agrees hagrees hfinite
  have hstart := startsWith_key ha
  refine ⟨css, length_eq_ok hx hcss, ?_⟩
  rw [Rule.scaleLength_congr _ hagrees] at hcss
  by_cases hp : a.property = .borderRadius
  · have hpixels : Rule.pixels y = css := by
      rw [hp] at hcss
      exact Except.ok.inj hcss
    rw [hp] at hstart
    rw [Rule.ofKey_radius hstart, ofRadius_key ha ho hy hyfinite className hp, hpixels]
  · rw [Rule.ofKey_scale hp hstart, ofScale_key ha ho hy hyfinite className hp hcss]

end ScaleNumber

namespace Scales

/-- Every number of a section has one key, which stands in the bucket of its size, and there are no
other keys. Each key has a rule. -/
structure CompilesNumbers (s : Scales) (o : RuleOptions) (t : BreakpointTable) (className : String)
    (b : Buckets) : Prop where
  keys : ∀ size, b.getD size [] = (s.numbers.filter (·.bucket = size)).map ScaleNumber.key
  rules : ∀ a ∈ s.numbers, ∃ css, a.length = .ok css ∧ Rule.ofKey o a.key className
    = .ok ⟨Rule.bodyOf (Rule.bare className) a.property.css css, a.media t⟩

/-- The sections whose numbers can be told from their keys: the numbers have finite floats, and the
breakpoints in the keys are told apart from what follows and have widths that can be written. -/
structure IsLegible (s : Scales) (t : BreakpointTable) : Prop where
  finite : ∀ a ∈ s.numbers, ∃ x, a.number.toFloat = .ok x ∧ x.isFinite = true
  breakpoints : ∀ a ∈ s.numbers, ∀ b, a.keyBreakpoint = some b →
    StyleKey.IsBreakpoint b ∧ ∃ width ∈ t.get? b, Numeral.IsShort width

variable {d : Document} {s : Scales} {t : BreakpointTable}

theorem exists_compilesNumbers (hd : Check.scales d = .valid s) (hs : s.IsLegible t)
    {o : RuleOptions} (ho : o.queries = t.queries) (className : String) :
    ∃ b, Keys.ofScales s.members = .ok b ∧ s.CompilesNumbers o t className b := by
  have htokens := hasSizeTokens_of_valid hd
  have hwritable : ∀ a ∈ s.numbers, (Value.number a.number).IsWritable := by
    intro a ha
    obtain ⟨_, hx, -⟩ := hs.finite a ha
    exact Number.isWritable_of_toFloat hx
  refine ⟨_, Keys.ofScales_members htokens hwritable, ?_, ?_⟩
  · intro size
    rw [Keys.getD_file, List.filter_map, List.map_map]
    rfl
  · intro a ha
    have hsound : a.IsSound t := by
      obtain ⟨m, hm, hscale⟩ := List.mem_flatMap.1 ha
      exact ⟨fun _ => Scale.isSizeToken_of_mem_numbers (htokens m hm) hscale,
        hs.breakpoints a ha, hs.finite a ha⟩
    exact ScaleNumber.exists_ofKey hsound ho className

/-- A section with numbers of every kind, as it is authored. -/
def mixedDocument : Document :=
  let number (n : Number) : Document := .scalar (.number n)
  .map [(.text "padding", .map
      [(.text "s:md:1", .map [(.text "bp:all", number 4), (.text "bp:md:1", number (.float 8.5))]),
        (.text "s:lg:1", number 2)]),
    (.text "textSize", number 14), (.text "borderRadius", .map [(.text "s:all", number 3)])]

def mixed : Scales :=
  [(.padding, .sizes [("s:md:1", .widths [("bp:all", 4), ("bp:md:1", .float 8.5)]),
      ("s:lg:1", .number 2)]),
    (.textSize, .number 14), (.borderRadius, .sizes [("s:all", .number 3)])]

theorem isLegible_mixed : mixed.IsLegible standardBreakpoints where
  finite := by
    have hfinite : ∀ a ∈ mixed.numbers,
        (a.number.toFloat.toOption.map Float.isFinite) = some true := by decide +kernel
    intro a ha
    exact exists_of_toOption_map (hfinite a ha)
  breakpoints := by
    have hall : ∀ a ∈ mixed.numbers, ∀ b ∈ a.keyBreakpoint,
        StyleKey.IsBreakpoint b ∧ ∃ width ∈ Dict.get? standardBreakpoints b,
          Numeral.IsShort width := by
      decide +kernel
    exact hall

theorem mixed_compilesNumbers : Check.scales mixedDocument = .valid mixed
    ∧ ∃ b, Keys.ofScales mixed.members = .ok b
      ∧ mixed.CompilesNumbers { force := false } standardBreakpoints "a" b :=
  ⟨rfl, exists_compilesNumbers (d := mixedDocument) rfl isLegible_mixed rfl "a"⟩

/-- The keys of a section are those of the numbers for one size or for all widths, and there are no
others. -/
def HasNoOtherKeys (s : Scales) (b : Buckets) : Prop :=
  ∀ size, b.getD size [] = (s.numbers.filter fun a => a.bucket = size
    ∧ (a.breakpoint = none ∨ a.size ≠ some allSizes)).map ScaleNumber.key

/-- A number for a size, or for all sizes, from a breakpoint on. -/
def stepped (size : String) : Scales := [(.padding, .sizes [(size, .widths [("bp:md:1", 8)])])]

def steppedDocument (size : String) : Document :=
  .map [(.text "padding", .map [(.text size, .map [(.text "bp:md:1", .scalar (.number 8))])])]

/-- The width has one digit more than can be written. -/
def wideBreakpoints : BreakpointTable := [("bp:md:1", 10 ^ Numeral.digitLimit)]

/-- A number for all sizes has a key also if it is given by breakpoint. A number for one size from a
breakpoint on has no rule if the width is too long to be written. -/
theorem sizeless_hasOtherKeys_and_wide_hasNoRule :
    (Check.scales (steppedDocument "s:all") = .valid (stepped "s:all")
      ∧ (stepped "s:all").IsLegible standardBreakpoints
      ∧ ∃ b, Keys.ofScales (stepped "s:all").members = .ok b ∧ ¬(stepped "s:all").HasNoOtherKeys b)
    ∧ Check.scales (steppedDocument "s:md:1") = .valid (stepped "s:md:1")
      ∧ (stepped "s:md:1").IsLegible standardBreakpoints
      ∧ (wideBreakpoints.get? "bp:md:1").isSome = true
      ∧ ∀ b, ¬(stepped "s:md:1").CompilesNumbers
        { force := false, queries := wideBreakpoints.queries } wideBreakpoints "a" b := by
  have hlegible : ∀ size, (stepped size).IsLegible standardBreakpoints := by
    intro size
    have hfloat : ((8 : Number).toFloat.toOption.map Float.isFinite) = some true := by
      decide +kernel
    have hwidth : StyleKey.IsBreakpoint "bp:md:1"
        ∧ ∃ width ∈ Dict.get? standardBreakpoints "bp:md:1", Numeral.IsShort width := by
      decide +kernel
    constructor
    case finite =>
      intro a ha
      obtain rfl := List.mem_singleton.1 ha
      exact exists_of_toOption_map hfloat
    case breakpoints =>
      intro a ha b hb
      obtain rfl := List.mem_singleton.1 ha
      obtain ⟨_, -, hb⟩ := Option.bind_eq_some_iff.1 hb
      obtain rfl := Option.some.inj hb
      exact hwidth
  refine ⟨⟨rfl, hlegible _, [("s:all", ["padding__8"])], rfl, ?sizeless⟩,
    rfl, hlegible _, rfl, ?wide⟩
  case sizeless =>
    intro hno
    have hkeys := hno "s:all"
    have hnone : ((stepped "s:all").numbers.filter fun a => a.bucket = "s:all"
        ∧ (a.breakpoint = none ∨ a.size ≠ some allSizes)) = [] := by
      simp [stepped, numbers, Scale.numbers, SizeScale.numbers, allSizes]
    rw [hnone] at hkeys
    cases hkeys
  case wide =>
    intro b h
    have hkey : ScaleNumber.key ⟨.padding, some "s:md:1", some "bp:md:1", 8⟩
        = "padding++s:md:1::bp:md:1__8" := by decide +kernel
    have hnone : (Rule.ofKey { force := false, queries := wideBreakpoints.queries }
        "padding++s:md:1::bp:md:1__8" "a").toOption.isNone = true := by decide +kernel
    obtain ⟨css, -, hrule⟩ := h.rules _ List.mem_cons_self
    rw [hkey] at hrule
    rw [hrule] at hnone
    cases hnone

end Scales
end AtomicCss

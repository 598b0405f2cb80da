import AtomicCss.Proofs.FloatTexts
import AtomicCss.Proofs.ScaleKeys
import AtomicCss.Proofs.ScaleNumbers

/-!
# The names of breakpoints in keys

A number for one size may be given from a breakpoint on, whose name is written into its key and is
looked up when the rule is made. Of the names that are written, an empty one counts as none, and one
that is not told apart from the value after it leaves the key without a rule, whether or not it has
a width. Any other name decides by its width alone: the key has a rule just if there is one.
-/
namespace AtomicCss

theorem Location.known_known (name : Option String) : known (known name) = known name := by
  simp [known, Option.filter_filter]

/-- What is cut off at its end neither holds a double mark nor ends with the mark. -/
theorem Text.of_cut_double {x : Char} {front s : List Char}
    (h : cut [x, x] (front ++ x :: x :: s) = some (front, s)) :
    occurs [x, x] front = false ∧ front.getLast? ≠ some x := by
  induction front with
  | nil => exact ⟨rfl, nofun⟩
  | cons c front ih =>
    rw [List.cons_append, cut] at h
    split at h
    · cases h
    · next hafter =>
      obtain ⟨m, hcut, heq⟩ := Option.map_eq_some_iff.1 h
      obtain ⟨hfront, hs⟩ := Prod.mk.inj heq
      obtain rfl : m = (front, s) := Prod.ext (List.cons.inj hfront).2 hs
      obtain ⟨hoccurs, hlast⟩ := ih hcut
      constructor
      · have hnone : after? [x, x] (c :: front) = none := by
          rw [Option.eq_none_iff_forall_ne_some]
          intro rest hrest
          have happend : c :: (front ++ x :: x :: s) = [x, x] ++ (rest ++ x :: x :: s) := by
            rw [← List.cons_append, after?_eq_some.1 hrest, List.append_assoc]
          rw [after?_eq_some.2 happend] at hafter
          cases hafter
        rw [occurs, cut, hnone, Option.isSome_map]
        exact hoccurs
      · cases front with
        | nil =>
          rintro hc
          obtain rfl : c = x := by simpa using hc
          simp [after?] at hafter
        | cons d front => simpa using hlast

/-- A breakpoint is told apart from the value after it if it is cut off there. -/
theorem StyleKey.isBreakpoint_of_cutString {b value : String} (hb : b ≠ "")
    (h : cutString "__" (b ++ ("__" ++ value)) = some (b, value)) : IsBreakpoint b := by
  obtain ⟨m, hcut, heq⟩ := Option.map_eq_some_iff.1 h
  obtain ⟨hfront, hvalue⟩ := Prod.mk.inj heq
  have hm : m = (b.toList, value.toList) := by
    refine Prod.ext ?_ ?_
    · rw [← hfront, String.toList_ofList]
    · rw [← hvalue, String.toList_ofList]
  have htext : (b ++ ("__" ++ value)).toList = b.toList ++ '_' :: '_' :: value.toList := by simp
  rw [htext, hm] at hcut
  exact ⟨hb, Text.of_cut_double hcut⟩

namespace Rule

variable {o : RuleOptions} {key className : String} {r : Rule}

theorem mediaQuery_known (queries : MediaQueries) (breakpoint : Option String) :
    mediaQuery queries (Location.known breakpoint) = mediaQuery queries breakpoint := by
  rw [mediaQuery, mediaQuery, Location.known_known]

/-- The value of a number's key that has a rule has been cut off at the right place. -/
theorem exists_decode_of_ofKey {p : ScaleProperty} (hstart : key.startsWith p.name = true)
    (h : ofKey o key className = .ok r) :
    ∃ k, StyleKey.decode key = .ok k ∧ ¬Numeral.Ungrouped k.value.toList := by
  by_cases hp : p = .borderRadius
  · subst hp
    rw [ofKey_radius hstart] at h
    obtain ⟨k, x, _, _, hk, -, hx, -⟩ := ofRadius_ok h
    exact ⟨k, hk, fun hu => by simp [hu.radius?_eq_none] at hx⟩
  · rw [ofKey_scale hp hstart] at h
    obtain ⟨k, _, x, _, hk, -, -, hx, -⟩ := ofScale_ok h
    exact ⟨k, hk, fun hu => by simp [hu.float?_eq_none] at hx⟩

end Rule

namespace ScaleNumber

/-- The number is given for a size from a breakpoint on that has the name. -/
def NamesBreakpoint (a : ScaleNumber) (b : String) : Prop :=
  ∃ size, a.size = some size ∧ size ≠ allSizes ∧ a.breakpoint = some b ∧ b ≠ allBreakpoints

/-- A finite number. If it is for one size, that is a size token. -/
structure IsFinite (a : ScaleNumber) : Prop where
  size : ∀ size, a.size = some size → isSizeToken size = true
  finite : ∃ x, a.number.toFloat = .ok x ∧ x.isFinite = true

variable {a : ScaleNumber} {b : String}

theorem keyBreakpoint_eq_some : a.keyBreakpoint = some b ↔ a.NamesBreakpoint b := by
  obtain ⟨p, size?, breakpoint?, n⟩ := a
  simp only [keyBreakpoint, Option.bind_eq_some_iff, NamesBreakpoint]
  constructor
  · rintro ⟨size, hsize, rfl⟩
    obtain ⟨rfl, hall⟩ := size_of_keySize _ hsize
    refine ⟨size, rfl, hall, rfl, ?_⟩
    rintro rfl
    simp [keySize] at hsize
  · rintro ⟨size, rfl, hall, rfl, hb⟩
    exact ⟨size, by simp [keySize, Keys.writtenSize, hall, hb], rfl⟩

/-- The number as its key has it: without the size and the breakpoint that are not written. -/
def written (a : ScaleNumber) : ScaleNumber :=
  { a with size := a.keySize, breakpoint := Location.known a.keyBreakpoint }

theorem keySize_written (a : ScaleNumber) : a.written.keySize = a.keySize := by
  have hbreakpoint : Location.known a.keyBreakpoint ≠ some allBreakpoints := by
    intro hall
    obtain ⟨_, -, -, -, hne⟩ := keyBreakpoint_eq_some.1 (Option.filter_eq_some_iff.1 hall).1
    exact hne rfl
  rw [keySize, written, if_neg hbreakpoint]
  cases hsize : a.keySize with
  | none => rfl
  | some size => simp [Keys.writtenSize, (a.size_of_keySize hsize).2]

theorem keyBreakpoint_written (a : ScaleNumber) :
    a.written.keyBreakpoint = Location.known a.keyBreakpoint := by
  rw [keyBreakpoint, keySize_written, written, keyBreakpoint]
  cases a.keySize <;> rfl

theorem key_written (a : ScaleNumber) : a.written.key = a.key := by
  have hsize : a.written.coordinates.sizeText = a.coordinates.sizeText := by
    simp only [coordinates, StyleKey.Coordinates.sizeText, keySize_written, keyBreakpoint_written,
      StyleKey.sizePart, Location.known_known]
  rw [key, key, hsize]
  rfl

/-- If the breakpoint of a number is told apart, its width alone decides over the rule. -/
theorem exists_ofKey_eq (ha : a.IsFinite)
    (hb : ∀ b, a.NamesBreakpoint b → b = "" ∨ StyleKey.IsBreakpoint b) (o : RuleOptions)
    (className : String) : ∃ body, Rule.ofKey o a.key className
      = (Rule.mediaQuery o.queries a.keyBreakpoint).map fun media => ⟨body, media⟩ := by
  -- Under a table with the breakpoint the key has a rule.
  let t : BreakpointTable := a.keyBreakpoint.toList.map fun b => (b, 0)
  have hsound : a.written.IsSound t := by
    refine ⟨fun size h => ha.size size (a.size_of_keySize h).1, fun b h => ?_, ha.finite⟩
    rw [keyBreakpoint_written] at h
    obtain ⟨hkey, hne⟩ := Option.filter_eq_some_iff.1 h
    refine ⟨(hb b (keyBreakpoint_eq_some.1 hkey)).resolve_left fun hempty => ?_, ?_⟩
    · simp [hempty] at hne
    · have hzero : Numeral.IsShort 0 := by decide
      simp [t, hkey, Dict.get?, hzero]
  obtain ⟨_, -, hrule⟩ :=
    exists_ofKey hsound (o := { o with queries := t.queries }) rfl className
  obtain ⟨k, hk, hof⟩ := Rule.ofKey_of_queries (startsWith_key hsound) hrule o.queries
  cases (decode_key hsound).symm.trans hk
  rw [key_written, keyBreakpoint_written, Rule.mediaQuery_known] at hof
  exact ⟨_, hof⟩

theorem key_eq {size : String} (hsize : a.keySize = some size) (hb : a.keyBreakpoint = some b)
    (hne : b ≠ "") : a.key = a.property.name ++ ("++" ++ ((size ++ "::")
      ++ (b ++ ("__" ++ StyleKey.valueText (.number a.number))))) := by
  have hknown : Location.known (some b) = some b := by simp [Location.known, hne]
  simp [key, coordinates, StyleKey.Coordinates.sizeText, StyleKey.sizePart, hsize, hb, hknown,
    String.append_assoc]

/-- A breakpoint is told apart from the value if the key of its number has a rule. -/
theorem isBreakpoint_of_ofKey (ha : a.IsFinite) (hb : a.NamesBreakpoint b) (hne : b ≠ "")
    {o : RuleOptions} {className : String} {r : Rule}
    (h : Rule.ofKey o a.key className = .ok r) : StyleKey.IsBreakpoint b := by
  have hstart := StyleKey.startsWith_of_encode (Keys.encode_coordinates ha.size)
  obtain ⟨k, hk, hvalue⟩ := Rule.exists_decode_of_ofKey hstart h
  have hkey := keyBreakpoint_eq_some.2 hb
  obtain ⟨size, hsize, -⟩ := Option.bind_eq_some_iff.1 hkey
  have htoken := ha.size size (a.size_of_keySize hsize).1
  have hplain : StyleKey.IsPlain a.property.name := by
    cases a.property <;> decide
  have hcut := StyleKey.cutString_append ['_'] (StyleKey.notMem_of_isSizeToken htoken).1
    (b ++ ("__" ++ StyleKey.valueText (.number a.number)))
  rw [key_eq hsize hkey hne, StyleKey.decode_sized hplain] at hk
  rw [show StyleKey.cutString "__" _ = _ from hcut] at hk
  cases hread : StyleKey.cutString "__" (b ++ ("__" ++ StyleKey.valueText (.number a.number))) with
  | none =>
    rw [hread] at hk
    cases hk
  | some m =>
    obtain ⟨front, value⟩ := m
    rw [hread] at hk
    cases hk
    rcases StyleKey.cutString_value hread with ⟨rfl, rfl⟩ | hbroken
    · exact StyleKey.isBreakpoint_of_cutString hne hread
    · exact absurd hbroken hvalue

end ScaleNumber
end AtomicCss

import AtomicCss.Proofs.JsonCharacters
import AtomicCss.Proofs.JsonRoundTrip
import AtomicCss.Proofs.RuleFailures
import AtomicCss.Proofs.StyleKeys

/-!
# The rules of font families

The families of a font stand in its key as a JSON list of texts. The key has a rule unless a family
holds two underscores in a row, which would begin another value, and the rule has the families as
they are read from the list.
-/
namespace AtomicCss

namespace Text

variable {x : Char}

theorem occurs_double_cons {c : Char} {s : List Char} : occurs [x, x] (c :: s) = true
    ↔ (x = c ∧ s.head? = some x) ∨ occurs [x, x] s = true := by
  have hafter : (after? [x, x] (c :: s)).isSome = true ↔ x = c ∧ s.head? = some x := by
    cases s with
    | nil => by_cases hc : x = c <;> simp [after?, hc]
    | cons d s =>
      rw [after?, after?, after?, List.head?_cons, Option.some.injEq, eq_comm (a := d)]
      split
      · split <;> simp_all
      · simp_all
  rw [← hafter, occurs, occurs, cut]
  split
  · next h => simp [h]
  · next h => simp [h]

theorem occurs_append_of_notMem {sep s t : List Char} {c : Char} (h : c ∉ s) :
    occurs (c :: sep) (s ++ t) = occurs (c :: sep) t := by
  rw [occurs, cut_append h, Option.isSome_map]
  rfl

/-- A doubled character does not reach over another character. -/
theorem occurs_append_cons {c : Char} (hc : x ≠ c) (s t : List Char) :
    occurs [x, x] (s ++ c :: t) = true ↔ occurs [x, x] s = true ∨ occurs [x, x] t = true := by
  induction s with
  | nil =>
    rw [List.nil_append, occurs_double_cons]
    simp [hc, occurs, cut]
  | cons d s ih =>
    rw [List.cons_append, occurs_double_cons, occurs_double_cons, ih]
    cases s with
    | nil => simp [Ne.symm hc]
    | cons e s => simp [or_assoc]

/-- Writing every other character without the character keeps what is doubled. -/
theorem occurs_flatMap {f : Char → List Char} (hself : f x = [x])
    (hother : ∀ c, c ≠ x → x ∉ f c ∧ f c ≠ []) (s : List Char) :
    occurs [x, x] (s.flatMap f) = occurs [x, x] s := by
  induction s with
  | nil => rfl
  | cons c s ih =>
    rw [List.flatMap_cons]
    by_cases hc : c = x
    · subst hc
      have hhead : (s.flatMap f).head? = some c ↔ s.head? = some c := by
        cases s with
        | nil => simp
        | cons d s =>
          by_cases hd : d = c
          · subst hd
            simp [hself]
          · obtain ⟨hnot, hne⟩ := hother d hd
            obtain ⟨e, es, hes⟩ := List.exists_cons_of_ne_nil hne
            have he : e ≠ c := by
              rintro rfl
              exact hnot (hes ▸ List.mem_cons_self)
            simp [hes, hd, he]
      rw [hself, List.singleton_append, Bool.eq_iff_iff, occurs_double_cons, occurs_double_cons,
        hhead, ih]
    · rw [occurs_append_of_notMem (hother c hc).1, ih, Bool.eq_iff_iff, occurs_double_cons]
      simp [Ne.symm hc]

end Text

namespace Json

theorem notMem_stringChar {c : Char} (hc : c ≠ '_') :
    '_' ∉ stringChar true c ∧ stringChar true c ≠ [] := by
  constructor
  · intro h
    rcases mem_stringChar h with ⟨rfl, -⟩ | h
    · exact hc rfl
    · exact absurd h (by decide)
  · rcases stringChar_cases c with ⟨-, e, he, -⟩ | ⟨-, hchar, -⟩ | hunits
    · simp [he]
    · simp [hchar]
    · rw [hunits, charEscape]
      split <;> simp [unitEscape]

def inside (s : String) : List Char := s.toList.flatMap (stringChar true)

theorem occurs_inside (s : String) :
    Text.occurs ['_', '_'] (inside s) = Text.occurs ['_', '_'] s.toList :=
  Text.occurs_flatMap rfl (fun _ hc => notMem_stringChar hc) s.toList

theorem writeItems_texts (depth : Nat) (names : List String) :
    (writeItems .key depth (names.map .text)).toList
      = names.flatMap fun s => ',' :: '"' :: (inside s ++ ['"']) := by
  induction names with
  | nil => rfl
  | cons s names ih =>
    rw [List.map_cons, writeItems, String.toList_append, ih, write, List.flatMap_cons]
    simp [Layout.break, Layout.key, stringText, inside]

theorem text_texts (s : String) (names : List String) :
    (text .key (.list ((s :: names).map .text))).toList
      = '[' :: '"' :: (inside s
        ++ '"' :: ((names.flatMap fun s => ',' :: '"' :: (inside s ++ ['"'])) ++ [']'])) := by
  rw [text, List.map_cons, write, String.toList_append, String.toList_append, String.toList_append,
    writeItems_texts, write]
  simp [Layout.break, Layout.key, stringText, inside]

/-- The list of families doubles an underscore only within a family. -/
theorem occurs_text_texts (names : List String) :
    Text.occurs ['_', '_'] (text .key (.list (names.map .text))).toList = true
      ↔ ∃ s ∈ names, Text.occurs ['_', '_'] s.toList = true := by
  have hitems : ∀ names : List String, Text.occurs ['_', '_']
      ((names.flatMap fun s => ',' :: '"' :: (inside s ++ ['"'])) ++ [']']) = true
        ↔ ∃ s ∈ names, Text.occurs ['_', '_'] s.toList = true := by
    intro names
    induction names with
    | nil => simp; decide
    | cons s names ih =>
      have hsplit : ((s :: names).flatMap fun s => ',' :: '"' :: (inside s ++ ['"'])) ++ [']']
          = [',', '"'] ++ (inside s ++ '"' ::
            ((names.flatMap fun s => ',' :: '"' :: (inside s ++ ['"'])) ++ [']'])) := by simp
      rw [hsplit, Text.occurs_append_of_notMem (by decide), Text.occurs_append_cons (by decide),
        occurs_inside, ih]
      simp
  cases names with
  | nil => simp; decide
  | cons s names =>
    have hsplit : '[' :: '"' :: (inside s ++ '"' ::
          ((names.flatMap fun s => ',' :: '"' :: (inside s ++ ['"'])) ++ [']']))
        = ['[', '"'] ++ (inside s ++ '"' ::
          ((names.flatMap fun s => ',' :: '"' :: (inside s ++ ['"'])) ++ [']'])) := rfl
    rw [text_texts, hsplit, Text.occurs_append_of_notMem (by decide),
      Text.occurs_append_cons (by decide), occurs_inside, hitems]
    simp

theorem rereadItems_texts (names : List String) : rereadItems (names.map .text)
    = .ok ((names.map fun s => String.ofList (joined s.toList)).map .text) := by
  induction names with
  | nil => rfl
  | cons s names ih =>
    rw [List.map_cons, rereadItems, ih]
    rfl

end Json

namespace Rule

variable {o : RuleOptions}

def familiesText (names : List String) : String := StyleKey.jsonText (.list (names.map .text))

def familiesKey (names : List String) : String :=
  DecorationProperty.textFont.name ++ ("__" ++ familiesText names)

def readFamilies (names : List String) : List String :=
  names.map fun s => String.ofList (Json.joined s.toList)

theorem familiesText_eq (names : List String) :
    familiesText names = Json.text .key (.list (names.map .text)) := by
  have hnormalize : Value.normalizeItems (names.map .text) = names.map .text := by
    induction names with
    | nil => rfl
    | cons s names ih =>
      rw [List.map_cons, Value.normalizeItems, ih]
      rfl
  rw [familiesText, StyleKey.jsonText, Value.normalize, hnormalize]

theorem read_familiesText (names : List String) :
    Json.read (familiesText names) = .ok (.list ((readFamilies names).map .text)) := by
  rw [familiesText_eq, Json.read_text rfl, Json.reread, Json.rereadItems_texts]
  rfl

theorem families?_texts (names : List String) :
    families? (.list (names.map .text)) = if names = [] then none else some names := by
  have hmapM : ∀ names : List String, (names.map Value.text).mapM Value.text? = some names := by
    intro names
    induction names with
    | nil => rfl
    | cons s names ih => rw [List.map_cons, List.mapM_cons, ih, Value.text?]; rfl
  cases names with
  | nil => rfl
  | cons s names => exact hmapM (s :: names)

/-- The value of the key of a decoration, if it holds no mark of another value. -/
theorem decorationValue_append (p : DecorationProperty) (value : String) :
    decorationValue p.name (p.name ++ ("__" ++ value))
      = if Text.occurs ['_', '_'] value.toList then
          .error (.value p.name value (p.name ++ ("__" ++ value)))
        else .ok value := by
  have hname : '_' ∉ p.name.toList := by cases p <;> decide
  have hcut : StyleKey.cutString "__" (p.name ++ ("__" ++ value)) = some (p.name, value) :=
    StyleKey.cutString_append_self ['_'] hname value
  have hoccurs : Text.occurs ['_', '_'] (p.name.toList ++ '_' :: '_' :: value.toList) = true := by
    rw [Text.occurs_append_of_notMem hname, Text.occurs_double_cons]
    exact .inl ⟨rfl, rfl⟩
  rw [decorationValue, hcut]
  cases hvalue : Text.occurs ['_', '_'] value.toList <;>
    simp [require, hoccurs, hvalue, bind, Except.bind, pure, Except.pure]

/-- The rule of the key of families. There is none if there is no family, or if a family holds two
underscores in a row. -/
theorem ofDecoration_familiesKey (names : List String) (className : String) :
    ofDecoration .textFont (familiesKey names) className
      = if names = [] ∨ ∃ s ∈ names, Text.occurs ['_', '_'] s.toList = true then
          .error (.value DecorationProperty.textFont.name (familiesText names) (familiesKey names))
        else .ok ⟨bodyOf (bare className) DecorationProperty.textFont.css
          (", ".intercalate ((readFamilies names).map familyText)), none⟩ := by
  have hoccurs := Json.occurs_text_texts names
  rw [← familiesText_eq] at hoccurs
  have hnil : readFamilies names = [] ↔ names = [] := List.map_eq_nil_iff
  rw [ofDecoration, familiesKey, decorationValue_append]
  by_cases hdouble : ∃ s ∈ names, Text.occurs ['_', '_'] s.toList = true
  · rw [if_pos (hoccurs.2 hdouble), if_pos (Or.inr hdouble)]
    rfl
  · rw [if_neg (hoccurs.not.2 hdouble)]
    simp only [bind, Except.bind, decorationCss, read_familiesText, families?_texts]
    by_cases hnames : names = []
    · rw [if_pos (hnil.2 hnames), if_pos (Or.inl hnames)]
    · rw [if_neg (hnil.not.2 hnames), if_neg (not_or.2 ⟨hnames, hdouble⟩)]
      rfl

end Rule
end AtomicCss

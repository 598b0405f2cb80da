import AtomicCss.Build
import AtomicCss.Proofs.FileTrees
import AtomicCss.Proofs.JsonCharacters
import AtomicCss.Proofs.RereadSchemas
import AtomicCss.Proofs.RoundingOrder
import AtomicCss.Schema.File

/-!
# Saved schemas come back

A schema that has been checked is saved as JSON and loaded again from the file: as far as JSON
gives back the value that has been written, the file gives back the schema. The text has no line
ends that reading a file would change, and what is written passes all checks again.
-/
namespace AtomicCss

namespace Text

theorem unifyBreaks_of_notMem {cs : List Char} (h : '\r' ∉ cs) : unifyBreaks cs = cs := by
  induction cs with
  | nil => rfl
  | cons c cs ih =>
    rw [List.mem_cons, not_or] at h
    have hc : c ≠ '\r' := Ne.symm h.1
    rw [unifyBreaks.eq_def]
    split
    · next heq => cases heq
    · next heq => exact absurd (List.cons.inj heq).1 hc
    · next heq =>
      obtain ⟨rfl, rfl⟩ := List.cons.inj heq
      rw [ih h.2, if_neg hc]

theorem ofFile_of_notMem {s : String} (h : '\r' ∉ s.toList) : ofFile s = s := by
  rw [ofFile, unifyBreaks_of_notMem h, String.ofList_toList]

end Text

deriving instance DecidableEq for Number

namespace Value

mutual

/-- Whether two values are identical: equal numbers of two kinds are not. -/
def isIdentical : Value → Value → Bool
  | .null, .null => true
  | .bool a, .bool b => a == b
  | .number m, .number n => decide (m = n)
  | .text s, .text t => s == t
  | .list items, .list others => areIdentical items others
  | .map members, .map others => membersIdentical members others
  | _, _ => false

def areIdentical : List Value → List Value → Bool
  | [], [] => true
  | v :: items, w :: others => v.isIdentical w && areIdentical items others
  | _, _ => false

def membersIdentical : List (String × Value) → List (String × Value) → Bool
  | [], [] => true
  | (j, v) :: members, (k, w) :: others =>
    j == k && v.isIdentical w && membersIdentical members others
  | _, _ => false

end

mutual

theorem isIdentical_iff : ∀ v w : Value, v.isIdentical w = true ↔ v = w
  | .null, w | .bool _, w | .number _, w | .text _, w => by cases w <;> simp [isIdentical]
  | .list items, w => by cases w <;> simp [isIdentical, areIdentical_iff items]
  | .map members, w => by cases w <;> simp [isIdentical, membersIdentical_iff members]

theorem areIdentical_iff : ∀ items others : List Value,
    areIdentical items others = true ↔ items = others
  | [], others => by cases others <;> simp [areIdentical]
  | v :: items, others => by
    cases others <;> simp [areIdentical, isIdentical_iff v, areIdentical_iff items]

theorem membersIdentical_iff : ∀ members others : List (String × Value),
    membersIdentical members others = true ↔ members = others
  | [], others => by cases others <;> simp [membersIdentical]
  | (_, v) :: members, others => by
    cases others <;>
      simp [membersIdentical, isIdentical_iff v, membersIdentical_iff members, Prod.ext_iff]

end

instance : DecidableEq Value := fun v w => decidable_of_iff _ (isIdentical_iff v w)

end Value

namespace Schema

variable {s : Schema}

theorem toValue_eq_ok (h : ∀ f ∈ s.free, f.IsJson) :
    s.toValue = .ok (s.toValueWith Document.numeralsOnly) := by
  rw [toValue, List.findSome?_eq_none_iff.2 fun f hf => (h f hf).isWritable]

/-- A schema is written unless one of its integers is too long to be. -/
theorem fileText_json_eq_ok {v : Value} (hv : s.toValue = .ok v) {text : String} :
    s.fileText .json = .ok text ↔ v.IsWritable ∧ Json.text .asciiFile v ++ "\n" = text := by
  simp only [fileText, hv, bind_eq_ok, Except.ok.injEq, exists_eq_left']
  split <;> simp [*, pure_eq_ok]

theorem ofDocument_toValue (source : String)
    (h : Check.schema (.ofValue (s.toValueWith Document.numeralsOnly)) = .valid s) :
    ofDocument source (.ofValue (s.toValueWith Document.numeralsOnly)) = .ok s := by
  rw [toValueWith_eq, Document.ofValue] at h ⊢
  have hgiven : (Document.map (Document.ofMembers
      (s.membersWith Document.numeralsOnly))).isGiven = true := rfl
  simp only [ofDocument, hgiven, h]
  rfl

theorem ofText_json {path : Path} (hpath : SchemaFormat.ofPath path = .json) {text : String}
    (hbreaks : '\r' ∉ text.toList)
    (hread : Json.read text = .ok (s.toValueWith Document.numeralsOnly))
    (h : Check.schema (.ofValue (s.toValueWith Document.numeralsOnly)) = .valid s) :
    ofText path text = .ok s := by
  rw [ofText, Text.ofFile_of_notMem hbreaks, hpath]
  refine bind_eq_ok.2 ⟨.ofValue (s.toValueWith Document.numeralsOnly), ?_, ?_⟩
  · rw [parse, hread]
  · exact ofDocument_toValue path.text h

/-- What is loaded from a path is the schema, and builds as the schema does. -/
structure IsLoadedFrom (s : Schema) (t : FileTree) (start : Position) (path : Path) : Prop where
  loaded : ofFile path (t.read start path) = .ok s
  builds : ∀ s', ofFile path (t.read start path) = .ok s' →
    ∀ o, (Build.ofSchema s' o).map Build.files = (Build.ofSchema s o).map Build.files

theorem isLoadedFrom_of_loaded {t : FileTree} {start : Position} {path : Path}
    (h : ofFile path (t.read start path) = .ok s) : s.IsLoadedFrom t start path where
  loaded := h
  builds := by
    intro s' h' o
    obtain rfl : s = s' := Except.ok.inj (h.symm.trans h')
    rfl

/-- A schema that has been checked, and whose free-form parts are as JSON has them, is saved as JSON
unless one of its integers is too long to be written, as none within the range of floats is. If the
text reads back as the value from which it has been written, then the schema is loaded again from
every file in which the text is saved. -/
theorem isLoadedFrom_of_saved {d : Document} (h : Check.schema d = .valid s)
    (hfree : ∀ f ∈ s.free, f.IsJson) {path : Path} (hpath : SchemaFormat.ofPath path = .json) :
    ∃ v, s.toValue = .ok v
      ∧ ((∃ text, s.fileText (.ofPath path) = .ok text) ↔ v.IsWritable)
      ∧ ((∀ n ∈ v.integers, ∃ x, (Number.int n).toFloat = .ok x) → v.IsWritable)
      ∧ ∀ text, s.fileText (.ofPath path) = .ok text → Json.read text = .ok v →
        ∀ (start : Position) (t t' : FileTree), t.write start path text = .ok t' →
          s.IsLoadedFrom t' start path := by
  have hvalue := toValue_eq_ok hfree
  have hbreaks : '\r'
      ∉ (Json.text .asciiFile (s.toValueWith Document.numeralsOnly) ++ "\n").toList := by
    have hlayout : ∀ depth, '\r' ∉ (Json.Layout.asciiFile.break depth).toList := by
      simp [Json.Layout.break, Json.Layout.asciiFile]
    simp [Json.text, Json.notMem_write (by decide) hlayout]
  rw [hpath]
  refine ⟨_, hvalue, ?_, ?_, ?_⟩
  · simp only [fileText_json_eq_ok hvalue, exists_and_left, exists_eq', and_true]
  · intro hrange n hn
    obtain ⟨_, hx⟩ := hrange n hn
    exact Number.isShort_of_toFloat hx
  · intro text htext hread start t t' hwrite
    obtain ⟨-, rfl⟩ := (fileText_json_eq_ok hvalue).1 htext
    apply isLoadedFrom_of_loaded
    rw [FileTree.read_of_write hwrite]
    exact ofText_json hpath hbreaks hread (Check.rereads_schema d s h hfree)

/-- A schema as it may be authored: with second names, spelled numbers and nothing in a palette. -/
def kitDocument : Document :=
  let number (n : Number) : Document := .scalar (.number n)
  let text (s : String) : Document := .scalar (.text s)
  let tracks : Document := .map [(.text "soft", .scalar .null),
    (.text "solid",
      .map [(.text "rest", .list [number 210, number (.float 12.5), number 40, number 1])])]
  let element : Document := .map
    [(.text "decorations", .map [(.text "text_weight", text "bold")]),
      (.text "scales", .map [(.text "padding", .map [(.text "s:all", text "8")])]),
      (.text "palettes", .map [(.text "brand", .map [(.text "textColor", .map
        [(.text "primary", tracks)])])]),
      (.text "effects", .map [(.text "border_radius", .map [(.text "rest", number 4)])])]
  .map [(.text "name", text "kit"), (.text "breakpoints", .map [(.text "bp:all", number 0)]),
    (.text "components", .map [(.text "box", .map [(.text "elements", .map
      [(.text "e1", element)])])])]

/-- A color as it is authored, with numbers of both kinds. -/
def kitColor : List Number := [210, .float 12.5, 40, 1]

/-- The tracks of a palette, free-form: one of them is nothing. -/
def kitTracks : Document := freeMap [("soft", .scalar .null), ("solid", freeMap
  [("rest", .list (kitColor.map fun n => .scalar (.number n)))])]

def kitElement : Element where
  decorations := some ⟨none, none, some ⟨"bold", by decide⟩, none, none, none⟩
  scales := some [(.padding, .sizes [("s:all", .number 8)])]
  palettes := some [("brand", [(.textColor, [("primary", kitTracks)])])]
  effects := some ⟨none, some [("rest", .scalar (.number 4))]⟩

def kit : Schema := ⟨"kit", none, none, [("bp:all", 0)], [("box", ⟨[("e1", kitElement)]⟩)]⟩

def kitValue : Value :=
  let tracks : Value :=
    .map [("soft", .null), ("solid", .map [("rest", .list (kitColor.map .number))])]
  let element : Value := .map [("decorations", .map [("textWeight", .text "bold")]),
    ("scales", .map [("padding", .map [("s:all", .number 8)])]),
    ("palettes", .map [("brand", .map [("textColor", .map [("primary", tracks)])])]),
    ("effects", .map [("borderRadius", .map [("rest", .number 4)])])]
  .map [("name", .text "kit"), ("breakpoints", .map [("bp:all", .number 0)]),
    ("components", .map [("box", .map [("elements", .map [("e1", element)])])])]

theorem isJson_kit : ∀ f ∈ kit.free, f.IsJson := by
  have hrest : (Document.list (kitColor.map fun n => .scalar (.number n))).IsJson := by
    refine .list _ ?_
    simp only [kitColor, List.map_cons, List.map_nil, List.forall_mem_cons]
    exact ⟨.int 210, .float 12.5 (by decide +kernel), .int 40, .int 1, List.forall_mem_nil _⟩
  have htracks : kitTracks.IsJson := by
    refine .map _ (by decide) (by decide) ?_
    rw [List.forall_mem_cons, List.forall_mem_singleton]
    refine ⟨.null, .map _ (by decide) (by decide) ?_⟩
    rwa [List.forall_mem_singleton]
  have hpalette : (freeMap [("textColor", freeMap [("primary", kitTracks)])]).IsJson := by
    refine .map _ (by decide) (by decide) ?_
    rw [List.forall_mem_singleton]
    refine .map _ (by decide) (by decide) ?_
    rwa [List.forall_mem_singleton]
  have hradius : (freeMap [("rest", .scalar (.number 4))]).IsJson := by
    refine .map _ (by decide) (by decide) ?_
    rw [List.forall_mem_singleton]
    exact .int 4
  intro f hf
  rcases List.mem_cons.1 hf with rfl | hf
  · exact hpalette
  · rw [List.mem_singleton.1 hf]
    exact hradius

theorem read_kitValue : Json.read (Json.text .asciiFile kitValue ++ "\n") = .ok kitValue := by
  -- The text is taken apart into the characters of its pieces, of which it is then read.
  rw [Json.read]
  simp only [kitValue, kitColor, List.map_cons, List.map_nil, Json.text, Json.write,
    Json.writeItems, Json.writeMembers, String.toList_append, Json.Layout.break,
    Json.Layout.asciiFile, String.toList_ofList, Json.stringText]
  decide +kernel

theorem isLoadedFrom_kit : Check.schema kitDocument = .valid kit ∧ (∀ f ∈ kit.free, f.IsJson)
    ∧ kit.toValue = .ok kitValue ∧ ∃ text t, kit.fileText .json = .ok text
      ∧ Json.read text = .ok kitValue ∧ FileTree.write {} [] ⟨"/", ["kit.json"]⟩ text = .ok t
      ∧ kit.IsLoadedFrom t [] ⟨"/", ["kit.json"]⟩ := by
  have hchecked : Check.schema kitDocument = .valid kit := rfl
  have hpath : SchemaFormat.ofPath ⟨"/", ["kit.json"]⟩ = .json := by decide +kernel
  obtain ⟨v, hvalue, -, -, hload⟩ := isLoadedFrom_of_saved hchecked isJson_kit hpath
  have hkit : kit.toValue = .ok kitValue := rfl
  obtain rfl : kitValue = v := Except.ok.inj (hkit.symm.trans hvalue)
  have hfile : kit.fileText .json = .ok (Json.text .asciiFile kitValue ++ "\n") :=
    (fileText_json_eq_ok hkit).2 ⟨by decide +kernel, rfl⟩
  rw [hpath] at hload
  have hlocate : FileTree.locate {} [] ⟨"/", ["kit.json"]⟩ = .ok ["kit.json"] := by decide +kernel
  have hwrite : FileTree.write {} [] ⟨"/", ["kit.json"]⟩ (Json.text .asciiFile kitValue ++ "\n")
      = .ok (FileTree.put {} ["kit.json"] (.file (Json.text .asciiFile kitValue ++ "\n"))) :=
    bind_eq_ok.2 ⟨_, hlocate, rfl⟩
  exact ⟨hchecked, isJson_kit, hkit, _, _, hfile, read_kitValue, hwrite,
    hload _ hfile read_kitValue _ _ _ hwrite⟩

end Schema
end AtomicCss

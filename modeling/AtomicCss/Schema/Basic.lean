import AtomicCss.Document.Value
import AtomicCss.Vocabulary

/-!
# Design-token schemas

A schema describes components made of named elements, and each element's style in up to four
sections: decorations, scales, palettes and effects. What the palettes, shadow colors and border
radii hold below their fixed levels is free-form, and is kept as it is in the document.
-/
namespace AtomicCss

/-- One of the words a decoration may have. -/
abbrev Word (p : DecorationProperty) := { w : String // w ∈ p.words.map Prod.fst }

def Word.ofString? (p : DecorationProperty) (s : String) : Option (Word p) :=
  if h : s ∈ p.words.map Prod.fst then some ⟨s, h⟩ else none

structure Decorations where
  textFont : Option (List String)
  textItalic : Option Bool
  textWeight : Option (Word .textWeight)
  textLineType : Option (Word .textLineType)
  textAlign : Option (Word .textAlign)
  borderStyle : Option (Word .borderStyle)

/-- A number for all widths, or numbers by breakpoint. -/
inductive SizeScale
  | number (n : Number)
  | widths (numbers : Dict Number)

inductive Scale
  | number (n : Number)
  | sizes (scales : Dict SizeScale)

abbrev Scales := List (ScaleProperty × Scale)

/-- Colors by palette, property and role; a role's tracks and states are free-form. -/
abbrev Palettes := Dict (List (ColorProperty × Dict Document))

/-- The parts of a shadow by interaction state. -/
structure Shadow where
  x : Option (List (InteractionState × Number))
  y : Option (List (InteractionState × Number))
  blur : Option (List (InteractionState × Number))
  color : Option (List (InteractionState × List Document))

structure Effects where
  shadow : Option Shadow
  borderRadius : Option (Dict Document)

structure Element where
  decorations : Option Decorations
  scales : Option Scales
  palettes : Option Palettes
  effects : Option Effects

structure Component where
  elements : Dict Element

structure Schema where
  name : String
  version : Option (List Int)
  author : Option String
  breakpoints : Dict Int
  components : Dict Component

/-- A member that is left out when it is absent. -/
def optionalMember {α : Type} (name : String) (f : α → Value) (a : Option α) : Dict Value :=
  match a with
  | some a => [(name, f a)]
  | none => []

namespace Decorations

def members (d : Decorations) : Dict Value :=
  optionalMember DecorationProperty.textFont.name (fun fs => .list (fs.map .text)) d.textFont
    ++ optionalMember DecorationProperty.textItalic.name .bool d.textItalic
    ++ optionalMember DecorationProperty.textWeight.name (fun w => .text w.1) d.textWeight
    ++ optionalMember DecorationProperty.textLineType.name (fun w => .text w.1) d.textLineType
    ++ optionalMember DecorationProperty.textAlign.name (fun w => .text w.1) d.textAlign
    ++ optionalMember DecorationProperty.borderStyle.name (fun w => .text w.1) d.borderStyle

end Decorations

def SizeScale.toValue : SizeScale → Value
  | .number n => .number n
  | .widths numbers => .map (numbers.map fun (k, n) => (k, .number n))

def Scale.toValue : Scale → Value
  | .number n => .number n
  | .sizes scales => .map (scales.map fun (k, s) => (k, s.toValue))

def Scales.members (s : Scales) : Dict Value := s.map fun (p, scale) => (p.name, scale.toValue)

def freeMap (members : Dict Document) : Document := .map (members.map fun (k, d) => (.text k, d))

def Palettes.members (p : Palettes) : Dict Document :=
  p.map fun (palette, properties) =>
    (palette, .map (properties.map fun (property, roles) => (.text property.name, freeMap roles)))

namespace Value

mutual

/-- The value with nothing in place of floats that have no numeral. -/
def numeralsOnly : Value → Value
  | .number (.float x) => if x.isFinite then .number (.float x) else .null
  | .list items => .list (numeralsOnlyItems items)
  | .map members => .map (numeralsOnlyMembers members)
  | v => v

def numeralsOnlyItems : List Value → List Value
  | [] => []
  | v :: items => v.numeralsOnly :: numeralsOnlyItems items

def numeralsOnlyMembers : List (String × Value) → List (String × Value)
  | [] => []
  | (k, v) :: members => (k, v.numeralsOnly) :: numeralsOnlyMembers members

end

end Value

/-- A document written out, floats without a numeral left out. -/
def Document.numeralsOnly (d : Document) : Value := d.toValue.numeralsOnly

def byState {α : Type} (f : α → Value) (states : List (InteractionState × α)) : Value :=
  .map (states.map fun (s, a) => (s.name, f a))

namespace Shadow

/-- The parts of a shadow that are given, its colors as `free` shows them. -/
def membersWith (free : Document → Value) (s : Shadow) : Dict Value :=
  optionalMember "x" (byState .number) s.x
    ++ optionalMember "y" (byState .number) s.y
    ++ optionalMember "blur" (byState .number) s.blur
    ++ optionalMember "color" (byState fun c => free (.list c)) s.color

def free (s : Shadow) : List Document := (s.color.getD []).map fun (_, c) => .list c

end Shadow

namespace Effects

/-- The effects that are given, what is free-form in them as `free` shows it. -/
def membersWith (free : Document → Value) (e : Effects) : Dict Value :=
  optionalMember "shadow" (fun s => .map (s.membersWith free)) e.shadow
    ++ optionalMember "borderRadius" (fun r => free (freeMap r)) e.borderRadius

def free (e : Effects) : List Document :=
  ((e.shadow.map Shadow.free).getD []) ++ (e.borderRadius.map freeMap).toList

/-- The effects that are given, written out. -/
def members (e : Effects) : Except DataFault (Dict Value) :=
  match e.free.findSome? Document.fault? with
  | some fault => .error fault
  | none => .ok (e.membersWith Document.numeralsOnly)

end Effects

namespace Element

/-- The sections by name, absent ones included. -/
def sections (e : Element) : List (String × Except DataFault (Option (Dict Value))) :=
  [("decorations", .ok (e.decorations.map Decorations.members)),
    ("scales", .ok (e.scales.map Scales.members)),
    ("palettes", .ok (e.palettes.map fun p => p.members.mapValues Document.toValue)),
    ("effects", e.effects.mapM Effects.members)]

def free (e : Element) : List Document :=
  ((e.palettes.map Palettes.members).getD []).values ++ ((e.effects.map Effects.free).getD [])

def toValueWith (free : Document → Value) (e : Element) : Value :=
  .map (optionalMember "decorations" (fun d => .map d.members) e.decorations
    ++ optionalMember "scales" (fun s => .map (Scales.members s)) e.scales
    ++ optionalMember "palettes" (fun p => .map (p.members.mapValues free)) e.palettes
    ++ optionalMember "effects" (fun x => .map (x.membersWith free)) e.effects)

end Element

namespace Component

def free (c : Component) : List Document := c.elements.flatMap fun (_, e) => e.free

def toValueWith (free : Document → Value) (c : Component) : Value :=
  .map [("elements", .map (c.elements.map fun (k, e) => (k, e.toValueWith free)))]

end Component

namespace Schema

def free (s : Schema) : List Document := s.components.flatMap fun (_, c) => c.free

def toValueWith (free : Document → Value) (s : Schema) : Value :=
  .map ([("name", .text s.name)]
    ++ optionalMember "version" (fun v => .list (v.map fun n => .number (.int n))) s.version
    ++ optionalMember "author" .text s.author
    ++ [("breakpoints", .map (s.breakpoints.map fun (k, n) => (k, .number (.int n)))),
        ("components", .map (s.components.map fun (k, c) => (k, c.toValueWith free)))])

/-- The schema as it is written, floats without a numeral left out of its free-form parts. -/
def toValue (s : Schema) : Except DataFault Value :=
  match s.free.findSome? Document.fault? with
  | some fault => .error fault
  | none => .ok (s.toValueWith Document.numeralsOnly)

/-- Whether two schemas say the same, in whatever order. -/
def same (s t : Schema) : Bool :=
  (s.toValueWith Document.toValue).same (t.toValueWith Document.toValue)

end Schema
end AtomicCss

import AtomicCss.ClassName
import AtomicCss.Keys.Tree

/-!
# Class maps

A class map tells a user interface which classes to put on an element. The full map has the shape
of the style-key tree. The split map joins the classes of each element into texts, the palettes
apart from the rest, so that palettes can be loaded on their own.
-/
namespace AtomicCss.ClassMap

mutual

/-- Replaces the keys in every list by their names and keeps all else. -/
def project (names : Dict String) : Value → Value
  | .map members => .map (projectMembers names members)
  | .list items => .list (items.map fun
    | .text key => .text (ClassName.of names key)
    | v => v)
  | v => v

def projectMembers (names : Dict String) : List (String × Value) → List (String × Value)
  | [] => []
  | (k, v) :: members => (k, project names v) :: projectMembers names members

end

mutual

/-- Whether lists hold only what can be looked up, at every depth of maps. -/
def hasKeysOnly : Value → Bool
  | .map members => haveKeysOnly members
  | .list items => items.all fun
    | .list _ | .map _ => false
    | _ => true
  | _ => true

def haveKeysOnly : List (String × Value) → Bool
  | [] => true
  | (_, v) :: members => hasKeysOnly v && haveKeysOnly members

end

/-- The class map of data of any shape, unless a list holds lists or maps. -/
def project? (names : Dict String) (v : Value) : Option Value :=
  if hasKeysOnly v then some (project names v) else none

/-- Joins class names with spaces, each once, where it first stands. -/
def join (classes : List String) : String := " ".intercalate classes.eraseDups

/-- The classes of an element apart from its palettes. -/
structure CoreRecord where
  decorations : String
  effects : List String
  selected : List String
  sizes : Dict String

abbrev ToneClasses := Dict Buckets

/-- The classes of one element in one palette. -/
structure PaletteRecord where
  plain : ToneClasses
  selected : ToneClasses

structure Split where
  core : Dict (Dict CoreRecord)
  palettes : Dict (Dict (Dict PaletteRecord))

def coreRecord (names : Dict String) (e : Entry) : CoreRecord :=
  let rename (keys : List String) := keys.map (ClassName.of names)
  let effects := e.effects.getD []
  { decorations := join (rename (e.decorations.getD []))
    effects := (effects.filter fun (label, _) => !isSelectedLabel label).flatMap (rename ·.2)
    selected := (effects.filter fun (label, _) => isSelectedLabel label).flatMap (rename ·.2)
    sizes := ((e.scales.getD []).filter fun (_, keys) => !keys.isEmpty).map fun (size, keys) =>
      (size, join (rename keys)) }

/-- A track's classes of a role, filed after those already there. -/
def fileTrack (names : Dict String) (classes : ToneClasses) (role track : String)
    (keys : List String) : ToneClasses :=
  classes.update role fun tracks =>
    (tracks.getD []).append track (keys.map (ClassName.of names))

/-- The keys of a label by track: as recorded, or all under the soft track. -/
def tracksOf (tones : Dict (Dict Buckets)) (role label : String) (keys : List String) : Buckets :=
  match (tones.getD role []).get? label with
  | some [] | none => [(Track.soft.name, keys)]
  | some tracks => tracks

def paletteRecord (names : Dict String) (roles : Dict Buckets) (tones : Dict (Dict Buckets)) :
    PaletteRecord :=
  let cells := roles.flatMap fun (role, labels) => labels.flatMap fun (label, keys) =>
    (tracksOf tones role label keys).map fun (track, keys) => (label, role, track, keys)
  let filed (cells : List (String × String × String × List String)) : ToneClasses :=
    cells.foldl (fun classes (_, role, track, keys) => fileTrack names classes role track keys) []
  { plain := filed (cells.filter fun (label, _) => !isSelectedLabel label)
    selected := filed (cells.filter fun (label, _) => isSelectedLabel label) }

def filePalette (palettes : Dict (Dict (Dict PaletteRecord)))
    (palette component element : String) (r : PaletteRecord) : Dict (Dict (Dict PaletteRecord)) :=
  palettes.update palette fun components =>
    (components.getD []).update component fun elements => (elements.getD []).set element r

/-- The split class map of a tree. Every element appears in the core map. -/
def split (names : Dict String) (tones : Dict (Dict ToneMetadata)) (t : KeyTree) : Split :=
  let core := t.map fun (component, elements) =>
    (component, elements.map fun (element, e) => (element, coreRecord names e))
  let palettes := t.entries.foldl (fun palettes (component, element, e) =>
    (e.palettes.getD []).foldl (fun palettes (palette, roles) =>
      let tones := ((tones.getD component []).getD element []).getD palette []
      filePalette palettes palette component element (paletteRecord names roles tones)) palettes) []
  { core, palettes }

/-- A text member that is left out when it is empty. -/
def textMember (name text : String) : Dict Value :=
  if text.isEmpty then [] else [(name, .text text)]

def classesMember (name : String) (classes : List String) : Dict Value :=
  if classes.isEmpty then [] else [(name, .text (join classes))]

/-- The record of an element: decorations `d`, effects `e`, selected effects `c` and sizes `s`. -/
def CoreRecord.toValue (r : CoreRecord) : Value :=
  .map (textMember "d" r.decorations ++ classesMember "e" r.effects ++ classesMember "c" r.selected
    ++ (if r.sizes.isEmpty then [] else [("s", .map (r.sizes.map fun (k, s) => (k, .text s)))]))

def tonesMember (name : String) (classes : ToneClasses) : Dict Value :=
  if classes.isEmpty then []
  else
    [(name, .map (classes.map fun (role, tracks) =>
      (role, .map (tracks.map fun (track, names) => (track, .text (join names))))))]

/-- The record of an element in a palette: its colors `p` and its selected colors `c`. -/
def PaletteRecord.toValue (r : PaletteRecord) : Value :=
  .map (tonesMember "p" r.plain ++ tonesMember "c" r.selected)

def nested {α : Type} (f : α → Value) (d : Dict (Dict α)) : Value :=
  .map (d.map fun (component, elements) =>
    (component, .map (elements.map fun (element, a) => (element, f a))))

def Split.coreValue (s : Split) : Value := nested CoreRecord.toValue s.core

def Split.paletteValues (s : Split) : Dict Value :=
  s.palettes.map fun (palette, d) => (palette, nested PaletteRecord.toValue d)

end AtomicCss.ClassMap

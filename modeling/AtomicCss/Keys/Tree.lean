import AtomicCss.Keys.Decoration
import AtomicCss.Keys.Effect
import AtomicCss.Keys.Palette
import AtomicCss.Schema.Basic

/-!
# Style-key trees

The tree of a schema holds the style keys of every element of every component, by section. Only
the sections that an element declares appear. Beside the tree stands the tone metadata, which says
for each palette key from which track it comes.
-/
namespace AtomicCss

structure Entry where
  decorations : Option (List String) := none
  scales : Option Buckets := none
  palettes : Option PaletteKeys := none
  effects : Option Buckets := none

/-- Entries by component and element. -/
abbrev KeyTree := Dict (Dict Entry)

namespace Entry

def listValue (keys : List String) : Value := .list (keys.map .text)

def bucketsValue (b : Buckets) : Value := .map (b.map fun (k, keys) => (k, listValue keys))

def palettesValue (p : PaletteKeys) : Value :=
  .map (p.map fun (palette, roles) =>
    (palette, .map (roles.map fun (role, labels) => (role, bucketsValue labels))))

def toValue (e : Entry) : Value :=
  .map (optionalMember "decorations" listValue e.decorations
    ++ optionalMember "scales" bucketsValue e.scales
    ++ optionalMember "palettes" palettesValue e.palettes
    ++ optionalMember "effects" bucketsValue e.effects)

def bucketKeys (b : Option Buckets) : List String := ((b.getD []).map (·.2)).flatten

def paletteKeys (e : Entry) : List String :=
  (e.palettes.getD []).flatMap fun (_, roles) => roles.flatMap fun (_, labels) => bucketKeys labels

def keys (e : Entry) : List String :=
  e.decorations.getD [] ++ bucketKeys e.effects ++ bucketKeys e.scales ++ e.paletteKeys

end Entry

namespace KeyTree

/-- The elements of all components, in order. -/
def entries (t : KeyTree) : List (String × String × Entry) :=
  t.flatMap fun (component, elements) => elements.map fun (element, e) => (component, element, e)

/-- All style keys of a tree, with repetitions. -/
def keys (t : KeyTree) : List String := (entries t).flatMap fun (_, _, e) => e.keys

def toValue (t : KeyTree) : Value :=
  .map (t.map fun (component, elements) =>
    (component, .map (elements.map fun (element, e) => (element, e.toValue))))

end KeyTree

/-- What compiling gives: the tree, the tone metadata by component and element, and the number of
palette keys. -/
structure Compiled where
  tree : KeyTree := []
  tones : Dict (Dict ToneMetadata) := []
  paletteKeyCount : Nat := 0

/-- Why a schema cannot be compiled, and the element it is about. -/
structure CompileFailure where
  place : Location
  error : CompileError

def CompileFailure.diagnostic? (e : CompileFailure) : Option Diagnostic :=
  e.error.diagnostic?.map (·.within e.place)

namespace Compiled

/-- A section that is given and not empty. -/
def filled {α : Type} (d : Option (Dict α)) : Option (Dict α) := d.filter fun m => !m.isEmpty

/-- The keys of an element's sections up to its palettes, with the metadata of these. -/
def entryBeforeEffects (e : Element) :
    Except CompileError (Entry × Option Keys.PaletteSection) := do
  let decorations ← (filled (e.decorations.map Decorations.members)).mapM Keys.ofDecorations
  let scales ← (filled (e.scales.map Scales.members)).mapM Keys.ofScales
  let palettes ← (filled (e.palettes.map Palettes.members)).mapM Keys.ofPalettes
  pure ({ decorations, scales, palettes := palettes.map (·.keys) }, palettes)

def effectKeys (e : Element) : Except CompileError (Option Buckets) := do
  let effects ← (e.effects.mapM Effects.members).mapError .data
  let effects ← (filled effects).mapM Keys.ofEffects
  pure (effects.filter fun b => !b.isEmpty)

def entryOf (e : Element) : Except CompileError (Entry × Option Keys.PaletteSection) := do
  let (entry, palettes) ← entryBeforeEffects e
  let effects ← effectKeys e
  pure ({ entry with effects }, palettes)

/-- Records the metadata of an element's palettes. Metadata recorded for the element before is
replaced. -/
def record (c : Compiled) (component element : String) (palettes : Option Keys.PaletteSection) :
    Compiled :=
  match palettes with
  | none => c
  | some p =>
    { c with
      tones := c.tones.update component fun elements => (elements.getD []).set element p.tones
      paletteKeyCount := c.paletteKeyCount + p.count }

/-- Compiles one element on what has been compiled, and says what is compiled then, whether or not
the element fails. The metadata of its palettes is recorded before its effects are compiled. -/
def step (c : Compiled) (component element : String) (e : Element) :
    Except CompileError Entry × Compiled :=
  match entryBeforeEffects e with
  | .error error => (.error error, c)
  | .ok (entry, palettes) =>
    ((effectKeys e).map fun effects => { entry with effects }, c.record component element palettes)

/-- Compiles one element: its entry, and what has been compiled with its metadata recorded. -/
def element (c : Compiled) (component element : String) (e : Element) :
    Except CompileError (Entry × Compiled) :=
  let (entry, c) := c.step component element e
  entry.map fun entry => (entry, c)

/-- Compiles one element into the tree. A failure is about the element. -/
def add (c : Compiled) (component element : String) (e : Element) :
    Except CompileFailure Compiled := do
  let (entry, c) ← (c.element component element e).mapError fun error =>
    { place := { component := some component, element := some element }, error }
  pure { c with
    tree := c.tree.update component fun elements => (elements.getD []).set element entry }

def ofSchema (s : Schema) : Except CompileFailure Compiled :=
  s.components.foldlM (fun c (component, spec) =>
    spec.elements.foldlM (fun c (element, e) => c.add component element e) c) {}

end Compiled
end AtomicCss

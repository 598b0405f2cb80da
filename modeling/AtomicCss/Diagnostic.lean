/-!
# Reports of failure

A report has a kind, a message and, where known, the place in the schema it is about. The kinds
form a tree: a malformed style key, for instance, is also a style-key error and an error.
-/
namespace AtomicCss

inductive ErrorKind
  | general
  | schema
  | legacyColorShape
  | schemaLoad
  | styleKey
  | styleKeyFormat
  | cssGeneration
  | unsupportedProperty
  | unsupportedValue
  | unsupportedState
  | invalidBreakpoint
  deriving DecidableEq

namespace ErrorKind

def ancestors : ErrorKind → List ErrorKind
  | general => []
  | schema | styleKey | cssGeneration => [general]
  | legacyColorShape | schemaLoad => [schema, general]
  | styleKeyFormat => [styleKey, general]
  | unsupportedProperty | unsupportedValue | unsupportedState | invalidBreakpoint =>
    [cssGeneration, general]

end ErrorKind

/-- A place in a schema. Empty names count as unknown. -/
structure Location where
  component : Option String := none
  element : Option String := none
  part : Option String := none
  styleKey : Option String := none

namespace Location

/-- A name that says something. -/
def known (name : Option String) : Option String := name.filter fun s => !s.isEmpty

/-- Puts a further piece after a place that may be empty. -/
def extend (place piece : String) : String :=
  if place.isEmpty then piece else place ++ " " ++ piece

/-- For instance `button.e1 [palettes] key boxColor__[0,0,0,1]`. -/
def text (l : Location) : String :=
  let place := ".".intercalate ([l.component, l.element].filterMap known)
  let place := match known l.part with
    | some s => extend place ("[" ++ s ++ "]")
    | none => place
  let place := match known l.styleKey with
    | some s => extend place ("key " ++ s)
    | none => place
  if place.isEmpty then "<schema>" else place

end Location

structure Diagnostic where
  kind : ErrorKind
  message : String
  place : Option Location := none

namespace Diagnostic

/-- The message, after a line with the place if there is one. -/
def text (d : Diagnostic) : String :=
  match d.place with
  | some l => l.text ++ "\n" ++ d.message
  | none => d.message

/-- The same report about another place. -/
def within (d : Diagnostic) (l : Location) : Diagnostic := { d with place := some l }

end Diagnostic
end AtomicCss

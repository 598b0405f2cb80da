import AtomicCss.Document.Basic
import AtomicCss.StyleKey.Encode

/-!
# Why an element cannot be compiled
-/
namespace AtomicCss

inductive CompileError
  /-- A color property holds interaction states where roles are expected. -/
  | statesForRoles
  /-- A role of a color property holds no tone track. -/
  | roleWithoutTracks (role : String)
  | unknownState (state property role : String) (track : Track)
  | key (e : StyleKey.EncodeError)
  /-- Something in the element cannot be used; there is no report of it. -/
  | data (e : DataFault)

namespace CompileError

def message : CompileError → String
  | statesForRoles =>
    "Invalid color schema: direct interaction-state maps are no longer supported. "
      ++ "Use soft/solid tracks under each semantic color."
  | roleWithoutTracks role =>
    "Invalid color schema: semantic color \"" ++ role ++ "\" must define soft/solid tracks."
  | unknownState state property role track =>
    "Invalid color schema: unknown interaction state \"" ++ state ++ "\" in " ++ property ++ "."
      ++ role ++ "." ++ track.name ++ "."
  | key e => e.message
  | data _ => ""

def kind? : CompileError → Option ErrorKind
  | statesForRoles | roleWithoutTracks _ => some .legacyColorShape
  | unknownState .. => some .schema
  | key _ => some .styleKey
  | data _ => none

def diagnostic? (e : CompileError) : Option Diagnostic :=
  e.kind?.map fun kind => { kind, message := e.message }

end CompileError

namespace Keys

/-- Goes on only if a value can be written. -/
def requireWritable (v : Value) : Except CompileError Unit :=
  if v.IsWritable then .ok () else .error (.data .noSuchValue)

def encode (c : StyleKey.Coordinates) : Except CompileError String := do
  let key ← (StyleKey.encode c).mapError .key
  requireWritable c.value
  pure key

end Keys
end AtomicCss

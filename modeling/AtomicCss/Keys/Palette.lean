import AtomicCss.Document.Value
import AtomicCss.Keys.Error

/-!
# Style keys of palettes

A palette colors properties by role, tone track and interaction state. Every color gives one key.
A color wrapped as a reference gives a key that applies while a parent element is in the state. A
map under `selected` that has a color at rest holds the states of the selected scope; any other
value there is itself a color.
-/
namespace AtomicCss

abbrev PaletteKeys := Dict (Dict Buckets)

/-- Keys by palette, role, state label and tone track. -/
abbrev ToneMetadata := Dict (Dict (Dict Buckets))

namespace Keys

/-- One key of a palette, with all it is filed under. -/
structure Emission where
  palette : String
  role : String
  label : String
  track : Track
  key : String

/-- The property, role and track being walked. -/
structure PaletteSpot where
  palette : String
  property : String
  role : String
  track : Track

/-- The color of a value and whether it was wrapped as a reference. -/
def unwrapRef : Document → Document × Bool
  | .map members =>
    match Document.get? members "ref" with
    | some color => (color, true)
    | none => (.map members, false)
  | d => (d, false)

/-- Whether a value is a map with a member for the state at rest, even an empty one. -/
def hasRest (d : Document) : Bool :=
  d.map?.any fun members => (Document.get? members InteractionState.rest.name).isSome

/-- The text of a color in a key: its compact JSON. -/
def colorText (color : Document) : Except CompileError String := do
  pure (StyleKey.jsonText (← color.json.mapError .data))

/-- The key of a color in a state. -/
def emit (spot : PaletteSpot) (state : InteractionState) (controlState : Bool) (value : Document) :
    Except CompileError Emission := do
  let (color, isRef) := unwrapRef value
  let text ← colorText color
  let key ← (StyleKey.encode
    { property := spot.property, value := .text text, isRef, controlState
      state := some state.name }).mapError .key
  pure { palette := spot.palette, role := spot.role, track := spot.track, key
         label := if controlState then selectedLabel state else state.name }

/-- The keys of one state of a track. -/
def emitState (spot : PaletteSpot) (states : List (Scalar × Document)) (state : InteractionState) :
    Except CompileError (List Emission) := do
  match Document.member? states state.name with
  | none => pure []
  | some value =>
    if state = .selected && hasRest value then
      let scope := value.map?.getD []
      InteractionState.control.filterMapM fun sub => do
        match Document.member? scope sub.name with
        | some color => pure (some (← emit spot sub true color))
        | none => pure none
    else pure [← emit spot state false value]

/-- Whether a key names an interaction state. -/
def isState : Scalar → Bool
  | .text s => (InteractionState.ofName? s).isSome
  | _ => false

/-- The keys of a track's state map. A name that is no state is refused before anything else. -/
def emitTrack (spot : PaletteSpot) (states : List (Scalar × Document)) :
    Except CompileError (List Emission) := do
  match states.find? fun (s, _) => !isState s with
  | some (s, _) =>
    throw (if s.IsWritable then .unknownState s.spoken spot.property spot.role spot.track
      else .data .noSuchValue)
  | none => pure (← InteractionState.inPalette.mapM (emitState spot states)).flatten

/-- The keys of a role: soft before solid. -/
def emitRole (palette property role : String) (entry : Document) :
    Except CompileError (List Emission) := do
  let tracks := entry.map?.getD []
  if !(Track.all.any fun t => (Document.get? tracks t.name).isSome) then
    throw (.roleWithoutTracks role)
  let keys ← Track.all.mapM fun track =>
    match (Document.get? tracks track.name).bind Document.map? with
    | some states => emitTrack { palette, property, role, track } states
    | none => pure []
  pure keys.flatten

/-- The members of what must be a map. -/
def membersOf (d : Document) : Except CompileError (List (Scalar × Document)) :=
  match d.map? with
  | some members => .ok members
  | none => .error (.data .notMap)

/-- The keys of a color property, none if it is null. -/
def emitProperty (palette property : String) (entry : Document) :
    Except CompileError (List Emission) := do
  if entry.isNull then return []
  if hasRest entry then throw .statesForRoles
  let keys ← (← membersOf entry).mapM fun (role, d) => emitRole palette property role.spoken d
  pure keys.flatten

def emissions (palettes : Dict Document) : Except CompileError (List Emission) := do
  let keys ← palettes.mapM fun (palette, properties) => do
    (← membersOf properties).mapM fun (property, entry) =>
      emitProperty palette property.spoken entry
  pure keys.flatten.flatten

def fileByLabel (m : PaletteKeys) (e : Emission) : PaletteKeys :=
  m.update e.palette fun roles => (roles.getD []).update e.role fun labels =>
    (labels.getD []).append e.label [e.key]

/-- Files a key by palette, role, label and track. -/
def fileByTrack (m : ToneMetadata) (e : Emission) : ToneMetadata :=
  m.update e.palette fun roles => (roles.getD []).update e.role fun labels =>
    (labels.getD []).update e.label fun tracks => (tracks.getD []).append e.track.name [e.key]

structure PaletteSection where
  keys : PaletteKeys
  tones : ToneMetadata
  count : Nat

def ofPalettes (palettes : Dict Document) : Except CompileError PaletteSection := do
  let es ← emissions palettes
  pure { keys := es.foldl fileByLabel [], tones := es.foldl fileByTrack [], count := es.length }

end Keys
end AtomicCss

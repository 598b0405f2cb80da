import AtomicCss.Keys.Scale

/-!
# Style keys of effects

A shadow's offsets, blur and color are authored apart, each by state, and joined into one key per
state. A part without a value for the state takes its value at rest, or else a default. A border
radius is a responsive value per state; below `selected` the states are written with their scope.
-/
namespace AtomicCss.Keys

/-- The parts of a shadow in the order of writing, with their defaults: no offset and no blur, in
opaque black. -/
def shadowParts : List (String × Value) :=
  [("x", .number 0), ("y", .number 0), ("blur", .number 0),
    ("color", .list [.number 0, .number 0, .number 0, .number 1])]

def shadowPart (shadow : Dict Value) (part : String) : Dict Value :=
  ((shadow.getD part .null).map?).getD []

/-- The states some part names, in order of first mention after the state at rest. -/
def shadowStates (shadow : Dict Value) : List String :=
  (InteractionState.rest.name
    :: shadowParts.flatMap fun (part, _) => (shadowPart shadow part).keys).eraseDups

def shadowValue (shadow : Dict Value) (state part : String) (default : Value) : Value :=
  let values := shadowPart shadow part
  let atRest := Value.member? values InteractionState.rest.name
  ((Value.member? values state).orElse fun _ => atRest).getD default

def shadowValues (shadow : Dict Value) (state : String) : List Value :=
  shadowParts.map fun (part, default) => shadowValue shadow state part default

/-- Why the parts of a shadow cannot be read. That one has no elements counts before that another
is no map. -/
def shadowFault? (shadow : Dict Value) : Option DataFault :=
  let given := (shadowParts.map fun (part, _) => shadow.getD part .null).filter Value.isGiven
  if given.any fun part => part.elements?.isNone then some .notElements
  else if given.any fun part => part.map?.isNone then some .notMap
  else none

def shadowKey (shadow : Dict Value) (state : String) : Except CompileError (String × String) := do
  let values : Value := .list (shadowValues shadow state)
  requireWritable values
  let text := StyleKey.jsonText values
  let key ← (StyleKey.encode { property := "shadow", value := .text text, state := some state
    }).mapError .key
  pure (state, key)

/-- The keys of a shadow, by state. -/
def ofShadow (shadow : Dict Value) : Except CompileError Buckets :=
  match shadowFault? shadow with
  | some e => .error (.data e)
  | none => do
    let keys ← (shadowStates shadow).mapM (shadowKey shadow)
    pure (file keys [])

/-- The keys of a border radius in one state, with the label they are filed under. -/
def radiusInState (label : String) (scope : Scope) (value : Option Value) :
    Except CompileError (List (String × String)) := do
  match value with
  | none => pure []
  | some v =>
    let keys ← responsive ScaleProperty.borderRadius.name scope v
    pure (keys.map fun (_, key) => (label, key))

def ofBorderRadius (radius : Dict Value) : Except CompileError Buckets := do
  let plain ← InteractionState.inEffect.mapM fun s =>
    radiusInState s.name { state := some s.name } (Value.member? radius s.name)
  let selected := ((radius.getD InteractionState.selected.name .null).map?).getD []
  let below ← InteractionState.control.mapM fun s =>
    radiusInState (selectedLabel s) { state := some s.name, controlState := true }
      (Value.member? selected s.name)
  pure (file (plain ++ below).flatten [])

/-- The keys of a part of the effects, none if it is absent or empty. -/
def ofPart (effects : Dict Value) (name : String)
    (keys : Dict Value → Except CompileError Buckets) : Except CompileError Buckets :=
  match ((effects.getD name .null).map?).filter fun m => !m.isEmpty with
  | some m => keys m
  | none => pure []

/-- The keys of a section of effects: those of the shadow before those of the radius. -/
def ofEffects (effects : Dict Value) : Except CompileError Buckets := do
  let shadow ← ofPart effects "shadow" ofShadow
  let radius ← ofPart effects "borderRadius" ofBorderRadius
  pure ((shadow ++ radius).foldl (fun b (label, keys) => b.append label keys) [])

end AtomicCss.Keys

import AtomicCss.Diagnostic
import AtomicCss.StyleKey.Value
import AtomicCss.Vocabulary

/-!
# Writing style keys

A style key names one declaration by its coordinates:

    {property}[--{state}|=={state}][++{size}[::{breakpoint}]]__{value}

The state at rest is not written, except in the selected scope, where every state is. A reference
key, written with `==`, applies while a parent element is in the state. A breakpoint is written
only with a size.
-/
namespace AtomicCss.StyleKey

structure Coordinates where
  property : String
  value : Value
  state : Option String := none
  /-- The state belongs to the selected scope. -/
  controlState : Bool := false
  isRef : Bool := false
  size : Option String := none
  breakpoint : Option String := none

/-- Why a style key cannot be written. -/
inductive EncodeError
  | scopeWithoutState
  | scopeOfSelected
  | scopeOfUnsupported (state : String)
  | scopeOfUnknown (state : String)
  | refAtRest (state : Option String)

namespace EncodeError

def choices : String := "|".intercalate (InteractionState.control.map InteractionState.name)

def message : EncodeError → String
  | scopeWithoutState =>
    "buildStyleKey: when controlState=true you must provide interactionState as one of " ++ choices
  | scopeOfSelected =>
    "buildStyleKey: interactionState 'selected' is redundant when controlState=true; use "
      ++ choices
  | scopeOfUnsupported s =>
    "buildStyleKey: interactionState '" ++ s ++ "' is not supported when controlState=true"
  | scopeOfUnknown s =>
    "buildStyleKey: invalid interactionState for controlState=true (got " ++ s
      ++ "); expected one of " ++ choices
  | refAtRest s =>
    "buildStyleKey: when isRef=true you must supply a non-'rest' interaction state (got "
      ++ ((Location.known s).getD "undefined") ++ ")"

def diagnostic (e : EncodeError) : Diagnostic := { kind := .styleKey, message := e.message }

end EncodeError

def writtenState (state : Option String) (controlState : Bool) :
    Except EncodeError (Option String) :=
  if !controlState then .ok state
  else
    match state with
    | none => .error .scopeWithoutState
    | some s =>
      match InteractionState.ofName? s with
      | some .selected => .error .scopeOfSelected
      | some .disabled | some .readOnly => .error (.scopeOfUnsupported s)
      | some _ => .ok (some ("selected:" ++ s))
      | none => .error (.scopeOfUnknown s)

def sizePart (size : String) (breakpoint : Option String) : String :=
  match Location.known breakpoint with
  | some b => "++" ++ size ++ "::" ++ b
  | none => "++" ++ size

/-- A state other than the one at rest. -/
def active (state : Option String) : Option String :=
  (Location.known state).filter (· != InteractionState.rest.name)

/-- Writes a style key. With a size the key is never a reference, and a state that is the empty
text is written; without one it counts as no state. -/
def encode (c : Coordinates) : Except EncodeError String := do
  let state ← writtenState c.state c.controlState
  let value := "__" ++ valueText c.value
  match Location.known c.size with
  | some size =>
    let size := sizePart size c.breakpoint
    match state.filter (· != InteractionState.rest.name) with
    | some s => pure (c.property ++ "--" ++ s ++ size ++ value)
    | none => pure (c.property ++ size ++ value)
  | none =>
    match active state with
    | some s => pure (c.property ++ (if c.isRef then "==" else "--") ++ s ++ value)
    | none => if c.isRef then throw (.refAtRest state) else pure (c.property ++ value)

end AtomicCss.StyleKey

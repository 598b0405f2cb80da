import AtomicCss.Diagnostic
import AtomicCss.Text.Cut
import AtomicCss.Vocabulary

/-!
# Reading style keys

The value is what follows the first `__`. Of what stands before, the size part follows the first
`++` and is divided by `::`; the state follows `==`, or else `--`.
-/
namespace AtomicCss.StyleKey

/-- The coordinates read off a style key. -/
structure Decoded where
  property : String
  /-- The parts of the state other than `rest`. -/
  stateTokens : List String
  isRef : Bool
  size : Option String
  breakpoint : Option String
  value : String
  /-- The state as written. -/
  rawState : Option String

/-- A key without the mark before its value. -/
inductive DecodeError
  | missingValue (key : String)

namespace DecodeError

def message : DecodeError → String
  | missingValue key => "Invalid key format. Missing \"__\" in \"" ++ key ++ "\"."

def diagnostic (e : DecodeError) : Diagnostic := { kind := .styleKeyFormat, message := e.message }

end DecodeError

/-- Splits a text at the first occurrence of a separator. -/
def cutString (sep s : String) : Option (String × String) :=
  (Text.cut sep.toList s.toList).map fun (a, b) => (String.ofList a, String.ofList b)

/-- The parts of a written state other than `rest`. -/
def stateTokens (raw : String) : List String :=
  ((Text.splitOn ':' raw.toList).map String.ofList).filter fun t => !t.isEmpty && t != "rest"

/-- Splits off the size part: what stands before it, the size and the breakpoint. -/
def splitSize (head : String) : String × Option String × Option String :=
  match cutString "++" head with
  | none => (head, none, none)
  | some (head, part) =>
    match cutString "::" part with
    | none => (head, some part, none)
    | some (size, breakpoint) => (head, some size, some breakpoint)

/-- Splits off the state: the property, whether the key is a reference, and the state. -/
def splitState (head : String) : String × Bool × Option String :=
  match cutString "==" head with
  | some (property, state) => (property, true, some state)
  | none =>
    match cutString "--" head with
    | some (property, state) => (property, false, some state)
    | none => (head, false, none)

/-- Reads a style key. -/
def decode (key : String) : Except DecodeError Decoded :=
  match cutString "__" key with
  | none => .error (.missingValue key)
  | some (head, value) =>
    let (head, size, breakpoint) := splitSize head
    let (property, isRef, rawState) := splitState head
    .ok { property, isRef, breakpoint, value, rawState
          stateTokens := stateTokens (rawState.getD "")
          size := Location.known size }

end AtomicCss.StyleKey

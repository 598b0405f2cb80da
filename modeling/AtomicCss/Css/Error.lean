import AtomicCss.Number.Basic
import AtomicCss.StyleKey.Decode

/-!
# Why a style key has no CSS rule
-/
namespace AtomicCss

inductive RuleError
  /-- The key's property is not the one its family expects. -/
  | property (expected key : String)
  | value (property value key : String)
  | state (state family key : String)
  | breakpoint (token : String)
  | size (size key : String)
  | scaleProperty (key : String)
  | missingValue (key : String)
  /-- No family takes the key. -/
  | family (key : String)
  | bracketsExpected
  | numberExpected
  /-- A reference without a state that a selector could express. -/
  | refWithoutState
  | shadowColor
  | undecodable (e : StyleKey.DecodeError)
  | number (e : NumberError)

namespace RuleError

def message : RuleError → String
  | property expected k =>
    "Invalid style key \"" ++ k ++ "\". The property name must be \"" ++ expected ++ "\"."
  | value p v k =>
    "Unsupported value \"" ++ v ++ "\" for property \"" ++ p ++ "\" in style key \"" ++ k ++ "\"."
  | state s kind k =>
    "Unsupported interaction state \"" ++ s ++ "\" in " ++ kind ++ " key \"" ++ k ++ "\"."
  | breakpoint token => "Invalid breakpoint token: " ++ token
  | size s k => "Invalid size token \"" ++ s ++ "\" in style key \"" ++ k ++ "\"."
  | scaleProperty k => "Invalid scale property in style key \"" ++ k ++ "\"."
  | missingValue k => "Missing value in style key \"" ++ k ++ "\"."
  | family k => "Unsupported style key: " ++ k
  | bracketsExpected => "Invalid key format. Expected value in square brackets at the end."
  | numberExpected => "Invalid key format. Expected numeric value in square brackets at the end."
  | refWithoutState =>
    "Invalid key format. Reference \"==\" requires a preceding non-rest interaction state."
  | shadowColor => "Invalid shadow color value."
  | undecodable e => e.message
  | number _ => ""

/-- The kind of report an error gives. A computation without a result gives none. -/
def kind? : RuleError → Option ErrorKind
  | property .. | scaleProperty _ => some .unsupportedProperty
  | value .. | size .. | missingValue _ | shadowColor => some .unsupportedValue
  | state .. => some .unsupportedState
  | breakpoint _ => some .invalidBreakpoint
  | family _ => some .cssGeneration
  | bracketsExpected | numberExpected | refWithoutState | undecodable _ => some .styleKeyFormat
  | number _ => none

def diagnostic? (e : RuleError) : Option Diagnostic :=
  e.kind?.map fun kind => { kind, message := e.message }

end RuleError

/-- Goes on only if a condition holds. -/
def require (holds : Bool) (e : RuleError) : Except RuleError Unit :=
  if holds then .ok () else .error e

/-- Goes on with what is there. -/
def given {α : Type} (a : Option α) (e : RuleError) : Except RuleError α :=
  match a with
  | some a => .ok a
  | none => .error e

/-- Goes on only if a size, where one is written, is allowed. -/
def requireSize (allowed : String → Bool) (size : Option String) (key : String) :
    Except RuleError Unit :=
  match size with
  | some size => require (allowed size) (.size size key)
  | none => .ok ()

end AtomicCss

import AtomicCss.Schema.Basic

/-!
# Problems of a valid schema

A schema that passes its checks may still have a breakpoint that cannot be met, which is an error,
or parts that say nothing or use unusual names, which are warned of.
-/
namespace AtomicCss

structure LintReport where
  errors : List String := []
  warnings : List String := []

namespace LintReport

def isValid (r : LintReport) : Bool := r.errors.isEmpty

/-- The report as one word with its counts. -/
def summary (r : LintReport) : String :=
  "SchemaValidationResult(errors=" ++ Decimal.digits r.errors.length ++ ", warnings="
    ++ Decimal.digits r.warnings.length ++ ")"

end LintReport

namespace Schema

def breakpointErrors (s : Schema) : Except DataFault (List String) :=
  (s.breakpoints.filter fun (_, width) => width < 0).mapM fun (token, width) =>
    match Number.intText? width with
    | some shown =>
      .ok ("Breakpoint " ++ Quoted.quote token ++ " has a negative width (" ++ shown ++ ")")
    | none => .error .noSuchValue

def breakpointWarnings (s : Schema) : List String :=
  (s.breakpoints.filter fun (token, _) => !Dict.has standardBreakpoints token).map fun (token, _) =>
    "Breakpoint " ++ Quoted.quote token ++ " is not a standard breakpoint token"

/-- The roles that palettes color outside the standard ones. -/
def roleWarnings (place : String) (palettes : Palettes) : List String :=
  palettes.flatMap fun (palette, properties) => properties.flatMap fun (_, roles) =>
    (roles.keys.filter fun role => !standardRoles.contains role).map fun role =>
      "Element " ++ place ++ " palette " ++ Quoted.quote palette
        ++ " uses non-standard semantic color " ++ Quoted.quote role

/-- Whether one of the sections is given and not empty. Those after it are not looked at. -/
def declaresStyle :
    List (String × Except DataFault (Option (Dict Value))) → Except DataFault Bool
  | [] => .ok false
  | (_, content) :: sections => do
    if ((← content).getD []).isEmpty then declaresStyle sections else pure true

def elementWarnings (place : String) (e : Element) : Except DataFault (List String) := do
  let idle := if ← declaresStyle e.sections then []
    else ["Element " ++ place ++ " declares no style sections"]
  pure (idle ++ roleWarnings place (e.palettes.getD []))

def componentWarnings (name : String) (c : Component) : Except DataFault (List String) := do
  let warnings ← c.elements.mapM fun (element, e) => elementWarnings (name ++ "." ++ element) e
  let hollow :=
    if c.elements.isEmpty then ["Component " ++ Quoted.quote name ++ " has no elements"] else []
  pure (hollow ++ warnings.flatten)

/-- The problems of a schema, unless a negative width or something in its effects cannot be written
out. -/
def lint (s : Schema) : Except DataFault LintReport := do
  let errors ← s.breakpointErrors
  let warnings ← s.components.mapM fun (name, c) => componentWarnings name c
  pure
    { errors
      warnings := s.breakpointWarnings
        ++ (if s.components.isEmpty then ["Schema defines no components"] else [])
        ++ warnings.flatten }

end Schema
end AtomicCss

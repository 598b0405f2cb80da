import AtomicCss.Diagnostic
import AtomicCss.Files.Tree
import AtomicCss.Json.Reader
import AtomicCss.Json.Writer
import AtomicCss.Schema.Check
import AtomicCss.Text.Lines
import AtomicCss.Yaml.Reader
import AtomicCss.Yaml.Writer

/-!
# Schema files

A schema is kept in a JSON or a YAML file; the ending of its path says which. Reading a file checks
its document against the schema; what is saved reads back as the same schema.
-/
namespace AtomicCss

inductive SchemaFormat
  | json | yaml
  deriving DecidableEq

/-- The format of a path: JSON if it ends so, in any case, and else YAML. -/
def SchemaFormat.ofPath (p : Path) : SchemaFormat :=
  if p.suffix.toLower = ".json" then .json else .yaml

def SchemaFormat.name : SchemaFormat → String
  | json => "JSON"
  | yaml => "YAML"

inductive LoadError
  | notFound (path : String)
  | syntaxError (format : SchemaFormat) (source : String)
  | empty (source : String)
  | notMap (source kind : String)
  | invalid (source : String) (issues : List Issue)
  | file (e : FileError)
  /-- Something is written that cannot be made. -/
  | data (e : DataFault)

namespace LoadError

def message : LoadError → String
  | notFound path => "Schema not found: " ++ path
  | syntaxError format source => "Invalid " ++ format.name ++ " in " ++ source
  | empty source => "Empty schema in " ++ source
  | notMap source kind => "Schema in " ++ source ++ " must be a mapping, got " ++ kind
  | invalid source _ => "Invalid schema in " ++ source
  | file _ | data _ => ""

/-- The report of an error. Trouble with files and data gives none. -/
def diagnostic? : LoadError → Option Diagnostic
  | file _ | data _ => none
  | e => some { kind := .schemaLoad, message := e.message }

def issues? : LoadError → Option (List Issue)
  | invalid _ issues => some issues
  | _ => none

end LoadError

namespace Schema

def ofDocument (source : String) (d : Document) : Except LoadError Schema :=
  if !d.isGiven then .error (.empty source)
  else
    match d with
    | .map _ =>
      match Check.schema d with
      | .valid s => .ok s
      | .invalid issues => .error (.invalid source issues)
    | _ => .error (.notMap source d.kindName)

def parse (format : SchemaFormat) (source text : String) : Except LoadError Document :=
  match format with
  | .json =>
    match Json.read text with
    | .ok v => .ok (.ofValue v)
    | .error .malformed => .error (.syntaxError format source)
    | .error .tooManyDigits => .error (.data .noSuchValue)
  | .yaml =>
    match Yaml.read text with
    | .ok d => .ok d
    | .error .malformed => .error (.syntaxError format source)
    | .error (.fault e) => .error (.data e)

def ofText (path : Path) (text : String) : Except LoadError Schema := do
  ofDocument path.text (← parse (.ofPath path) path.text (Text.ofFile text))

def ofFile (path : Path) (content : Except FileError String) : Except LoadError Schema :=
  match content with
  | .ok text => ofText path text
  | .error .isDirectory => .error (.file .isDirectory)
  | .error .tooLong => .error (.file .tooLong)
  | .error _ => .error (.notFound path.text)

def fileText (format : SchemaFormat) (s : Schema) : Except DataFault String := do
  let v ← s.toValue
  if v.IsWritable then
    match format with
    | .json => pure (Json.text .asciiFile v ++ "\n")
    | .yaml => pure (Yaml.text ((v.map?).getD []))
  else throw .noSuchValue

end Schema
end AtomicCss

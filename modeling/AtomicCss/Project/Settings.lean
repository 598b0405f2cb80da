import AtomicCss.Build
import AtomicCss.Files.Disk
import AtomicCss.Text.Lines
import AtomicCss.Toml.Reader

/-!
# Projects

A project is a directory with a settings file, which says where the schema is, where the outputs go
and how they are made. What the file does not say has a default. The file in effect is that of the
nearest directory upwards.
-/
namespace AtomicCss

inductive SettingsError
  /-- The file is no TOML. -/
  | malformed
  /-- Something else stands where a table is expected. -/
  | notTable
  /-- Something else stands where a path is expected. -/
  | notText
  | number (e : NumberError)
  | file (e : FileError)

structure Settings where
  name : Document := .scalar (.text "plumage")
  schema : Document := .scalar (.text "tokens.yaml")
  outputDir : Document := .scalar (.text "dist")
  forceState : Document := .scalar (.bool true)
  combineMedia : Document := .scalar (.bool true)
  breakpoints : BreakpointTable := []

structure Project where
  root : Path
  settings : Settings

namespace Settings

def fileName : String := "plumage.toml"

/-- The members of a table, none if it is absent. -/
def table (d : List (Scalar × Document)) (name : String) :
    Except SettingsError (List (Scalar × Document)) :=
  match Document.get? d name with
  | none => .ok []
  | some (.map members) => .ok members
  | some _ => .error .notTable

/-- A width in whole pixels. Fractions are cut off, and text that spells an integer is read. -/
def width : Document → Except NumberError Int
  | .scalar (.number n) => n.truncate
  | .scalar (.bool b) => .ok (if b then 1 else 0)
  | .scalar (.text s) =>
    match Numeral.int? s.toList with
    | some n => .ok n
    | none => .error .notANumber
  | _ => .error .notNumeric

def ofDocument (d : Document) : Except SettingsError Settings := do
  let members ← match d with
    | .map members => pure members
    | _ => throw .notTable
  let project ← table members "project"
  let build ← table members "build"
  let widths ← table members "breakpoints"
  let setting (name : String) (default : Document) : Document :=
    (Document.get? build name).getD default
  let standard : Settings := {}
  let breakpoints ← widths.mapM fun (k, d) => do
    pure (Document.keyText k, ← (width d).mapError SettingsError.number)
  pure
    { name := (Document.get? project "name").getD (setting "name" standard.name)
      schema := setting "schema" standard.schema
      outputDir := setting "output_dir" standard.outputDir
      forceState := setting "force_state" standard.forceState
      combineMedia := setting "combine_media" standard.combineMedia
      breakpoints }

def ofText (text : String) : Except SettingsError Settings :=
  match Toml.read (Text.ofFile text) with
  | .ok d => ofDocument d
  | .error .malformed => .error .malformed
  | .error .tooManyDigits => .error (.number .notANumber)

def options (s : Settings) : BuildOptions :=
  { forceState := s.forceState.isGiven, combineMedia := s.combineMedia.isGiven
    breakpoints := s.breakpoints }

end Settings

namespace Project

def pathOf (p : Project) (setting : Document) : Except SettingsError Path :=
  match setting with
  | .scalar (.text s) => .ok (p.root.child s)
  | _ => .error .notText

def schemaPath (p : Project) : Except SettingsError Path := p.pathOf p.settings.schema

def outputPath (p : Project) : Except SettingsError Path := p.pathOf p.settings.outputDir

section
variable {m : Type → Type} [Monad m]

/-- The project of a settings file. Its root is the directory of the file. -/
def load (disk : Disk m) (path : Path) : m (Except SettingsError Project) := do
  match ← disk.read path with
  | .error e => pure (.error (.file e))
  | .ok text => pure ((Settings.ofText text).map fun settings => ⟨path.parent, settings⟩)

def firstIn (disk : Disk m) : List Path → m (Except FileError (Option Path))
  | [] => pure (.ok none)
  | directory :: rest => do
    let path := directory.child Settings.fileName
    match ← disk.isFile path with
    | .error e => pure (.error e)
    | .ok true => pure (.ok (some path))
    | .ok false => firstIn disk rest

/-- A directory and those it lies in, up to the root. -/
def upwards (p : Path) : List Path :=
  let depth := p.parts.length
  (List.range (depth + 1)).map fun n => { p with parts := p.parts.take (depth - n) }

def find (disk : Disk m) (start : Path) : m (Except FileError (Option Path)) :=
  let place := disk.here.join start
  if place.text.toList.contains '\x00' then pure (.error .badName)
  else firstIn disk (upwards { place with parts := Path.collapse place.parts })

end

end Project
end AtomicCss

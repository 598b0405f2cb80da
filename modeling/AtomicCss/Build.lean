import AtomicCss.ClassMap
import AtomicCss.Css.Stylesheet
import AtomicCss.Files.Tree
import AtomicCss.Json.Writer
import AtomicCss.Usage

/-!
# Builds

A build compiles a schema, names its style keys by use, and makes the stylesheets and class maps.
Its outputs are files, of which a later one replaces an earlier one of the same name.
-/
namespace AtomicCss

structure BuildOptions where
  forceState : Bool := true
  combineMedia : Bool := true
  /-- Widths that replace or add to the schema's. -/
  breakpoints : BreakpointTable := []

inductive BuildError
  | compile (e : CompileFailure)
  | rule (e : RuleError)

def BuildError.diagnostic? : BuildError → Option Diagnostic
  | compile e => e.diagnostic?
  | rule e => e.diagnostic?

structure Build where
  compiled : Compiled
  usage : Dict Nat
  names : Dict String
  /-- The rules from which the sheets are written. -/
  rules : BundleRules
  sheets : Bundles
  classMap : Value
  splitMap : ClassMap.Split

namespace Build

def breakpointsOf (s : Schema) (o : BuildOptions) : BreakpointTable :=
  Dict.merge s.breakpoints o.breakpoints

def rulesOf (s : Schema) (o : BuildOptions) : RuleOptions :=
  { force := o.forceState, queries := (breakpointsOf s o).queries }

def ofRules (s : Schema) (rules : RuleOptions) (combineMedia : Bool) :
    Except BuildError Build := do
  let compiled ← (Compiled.ofSchema s).mapError .compile
  let usage := Usage.ofTree compiled.tree
  let names := ClassName.assign usage.keys
  let rules ← (BundleRules.ofTree rules names compiled.tree).mapError .rule
  pure { compiled, usage, names, rules
         sheets := .ofRules combineMedia rules
         classMap := ClassMap.project names compiled.tree.toValue
         splitMap := ClassMap.split names compiled.tones compiled.tree }

def ofSchema (s : Schema) (o : BuildOptions) : Except BuildError Build :=
  ofRules s (rulesOf s o) o.combineMedia

def mapFile (v : Value) : String := Json.text .file v ++ "\n"

def sheetName (palette : String) : String := "palette." ++ palette ++ ".css"

def mapName (palette : String) : String := "class-map." ++ palette ++ ".json"

/-- The outputs with their names: four fixed ones and two for each palette. -/
def outputs (b : Build) : List (String × String) :=
  [("core.css", b.sheets.core), ("effects.css", b.sheets.effects),
      ("class-map.json", mapFile b.classMap),
      ("class-map.core.json", mapFile b.splitMap.coreValue)]
    ++ b.sheets.palettes.map (fun (palette, css) => (sheetName palette, css))
    ++ b.splitMap.paletteValues.map fun (palette, v) => (mapName palette, mapFile v)

def files (b : Build) : Dict String := .ofList b.outputs

/-- The output files in the order of their names. -/
def sortedFiles (b : Build) : List (String × String) :=
  b.files.mergeSort fun x y => decide (x.1 ≤ y.1)

def outputPaths (b : Build) (directory : Path) : List Path :=
  b.sortedFiles.map fun (name, _) => directory.child name

/-- Writes the output files into a directory, which is made if need be. -/
def write (b : Build) (start : Position) (directory : Path) (t : FileTree) :
    FileTree × Option FileError :=
  t.save start directory b.sortedFiles

end Build
end AtomicCss

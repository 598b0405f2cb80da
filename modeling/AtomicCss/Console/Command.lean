import AtomicCss.Color.Tone
import AtomicCss.Console.Arguments
import AtomicCss.Console.Markup
import AtomicCss.Console.Table
import AtomicCss.Project.Settings
import AtomicCss.Schema.File
import AtomicCss.Schema.Lint

/-!
# Running commands

A command reads and writes files through a disk and gives what it prints and how it ends. Failures
that have a report are printed; others end the command and are passed on. Messages, and the titles
and cells of tables, are shown without their style tags.
-/
namespace AtomicCss.Console

inductive Output
  /-- Text that is shown as it is. -/
  | plain (text : String)
  | line (message : String)
  | problem (message : String)
  | table (t : Table)

inductive Trouble
  | file (e : FileError)
  | settings (e : SettingsError)
  | load (e : LoadError)
  | build (e : BuildError)
  | compile (e : CompileFailure)
  | rule (e : RuleError)
  | data (e : DataFault)
  | markup (e : Markup.Fault)

structure Outcome where
  exitCode : Nat := 0
  outputs : List Output := []
  trouble : Option Trouble := none

namespace Outcome

/-- The end of a command that has said what is wrong. -/
def failed (outputs : List Output) : Outcome := { exitCode := 1, outputs }

def troubled (outputs : List Output) (t : Trouble) : Outcome :=
  { exitCode := 1, outputs, trouble := some t }

/-- The same end after some more was printed before. -/
def after (outputs : List Output) (o : Outcome) : Outcome :=
  { o with outputs := outputs ++ o.outputs }

end Outcome

def message (text : String) : Except Markup.Fault String := do
  pure (String.ofList (Wrap.expandTabs (← Markup.shown text).toList))

/-- A table with its texts as they are shown. The cells are measured column by column before the
title is shown. -/
def Table.shown (t : Table) : Except Markup.Fault Table := do
  (List.range t.columns.length).forM fun i => t.rows.forM fun row => do
    let _ ← Markup.parse (row.getD i "")
  let title ← t.title.mapM Markup.shown
  let rows ← t.rows.mapM fun row => row.mapM Markup.shown
  pure { t with title, rows }

def Output.shown : Output → Except Markup.Fault Output
  | .plain text => .ok (.plain text)
  | .line text => .line <$> message text
  | .problem text => .problem <$> message text
  | .table t => .table <$> t.shown

/-- The outputs up to the first that cannot be shown, and why it cannot be. -/
def shownOutputs : List Output → List Output × Option Markup.Fault
  | [] => ([], none)
  | o :: rest =>
    match o.shown with
    | .error e => ([], some e)
    | .ok o =>
      let (outputs, fault) := shownOutputs rest
      (o :: outputs, fault)

/-- The end of a command as it is seen. An output that cannot be shown ends the command there. -/
def Outcome.shown (o : Outcome) : Outcome :=
  match shownOutputs o.outputs with
  | (outputs, none) => { o with outputs }
  | (outputs, some e) => .troubled outputs (.markup e)

def failure (message : String) : Output := .problem (Markup.styled "red" message)

def ended (report : Diagnostic → Output) (d : Option Diagnostic) (t : Trouble) : Outcome :=
  match d with
  | some d => .failed [report d]
  | none => .troubled [] t

def reportOf (d : Diagnostic) : Output := failure d.text

section
variable {m : Type → Type} [Monad m]

/-- The project at hand: of the settings file given, or of the one in effect, or with standard
settings in the working directory. -/
def project (disk : Disk m) (config : Option Path) : m (Except Outcome Project) := do
  let loaded (path : Path) : m (Except Outcome Project) := do
    match ← Project.load disk path with
    | .ok p => pure (.ok p)
    | .error .malformed => pure (.error (.failed [failure ("Invalid " ++ Settings.fileName)]))
    | .error e => pure (.error (.troubled [] (.settings e)))
  match config with
  | some path =>
    match ← disk.isFile path with
    | .ok true => loaded path
    | .ok false => pure (.error (.failed [failure ("Config file not found: " ++ path.text)]))
    | .error e => pure (.error (.troubled [] (.file e)))
  | none =>
    match ← Project.find disk disk.here with
    | .ok (some path) => loaded path
    | .ok none => pure (.ok ⟨disk.here, {}⟩)
    | .error e => pure (.error (.troubled [] (.file e)))

def schema (disk : Disk m) (p : Project) (given : Option Path) : m (Except Outcome Schema) := do
  let path : Except SettingsError Path := match given with
    | some path => .ok path
    | none => p.schemaPath
  match path with
  | .error e => pure (.error (.troubled [] (.settings e)))
  | .ok path =>
    match Schema.ofFile path (← disk.read path) with
    | .ok s => pure (.ok s)
    | .error e => pure (.error (ended reportOf e.diagnostic? (.load e)))

def written (s : Schema) (files : List (String × String)) : Output :=
  let rows := files.map fun (name, text) =>
    [(Path.ofText name).name, Decimal.digits text.utf8ByteSize]
  .table {
    title := some ("plumage build: " ++ s.name)
    columns := [⟨"File", false⟩, ⟨"Bytes", true⟩]
    rows }

def summary (b : Build) (target : Path) : Output :=
  .line (Markup.styled "green" "✓" ++ " " ++ Decimal.digits b.usage.length ++ " style keys, "
    ++ Decimal.digits b.sheets.palettes.length ++ " palette(s) -> " ++ target.text)

def buildReport (d : Diagnostic) : Output :=
  .problem (Markup.styled "red" "Build failed:" ++ " " ++ d.text)

/-- Writes the outputs of a build. -/
def deliver (disk : Disk m) (s : Schema) (b : Build) (target : Except SettingsError Path) :
    m Outcome := do
  match target with
  | .error e => pure (.troubled [] (.settings e))
  | .ok target =>
    match ← disk.save target b.sortedFiles with
    | some e => pure (.troubled [] (.file e))
    | none => pure { outputs := [written s b.sortedFiles, summary b target] }

def runBuild (disk : Disk m) (a : BuildArguments) : m Outcome := do
  match ← project disk a.config with
  | .error o => pure o
  | .ok p =>
    match ← schema disk p a.schema with
    | .error o => pure o
    | .ok s =>
      let standard := p.settings.options
      let options := { standard with
        forceState := a.forceState.getD standard.forceState
        combineMedia := a.combineMedia.getD standard.combineMedia }
      match Build.ofSchema s options with
      | .error e => pure (ended buildReport e.diagnostic? (.build e))
      | .ok b =>
        deliver disk s b (match a.output with
          | some path => .ok path
          | none => p.outputPath)

/-- What a style key says and the rule it gives, field by field. -/
def keyRows (k : StyleKey.Decoded) (rule : Rule) : List (List String) :=
  let orDash (s : Option String) : String := (Location.known s).getD "-"
  let states := ":".intercalate k.stateTokens
  [["property", k.property],
    ["states", if states.isEmpty then InteractionState.rest.name else states],
    ["reference", if k.isRef then "yes" else "no"],
    ["size", orDash k.size],
    ["breakpoint", orDash k.breakpoint],
    ["value", k.value],
    ["css", rule.text]]

def explain (key : String) : Outcome :=
  let result : Except RuleError (StyleKey.Decoded × Rule) := do
    let k ← (StyleKey.decode key).mapError .undecodable
    pure (k, ← Rule.ofKey { force := true } key "x")
  match result with
  | .ok (k, rule) =>
    let columns := [⟨"Field", false⟩, ⟨"Value", false⟩]
    { outputs := [.table { columns, hasHeader := false, rows := keyRows k rule }] }
  | .error e => ended reportOf e.diagnostic? (.rule e)

/-- The first items, or all but the last ones if the count is negative. -/
def firstItems {α : Type} (count : Int) (items : List α) : List α :=
  if count < 0 then items.take (items.length - count.natAbs) else items.take count.natAbs

/-- The most used style keys of a schema. -/
def usageOutput (s : Schema) (usage : Dict Nat) (top : Int) (json : Bool) : Output :=
  let names := ClassName.assign usage.keys
  let rows := firstItems top usage
  if json then
    let key (k : String) (n : Nat) : Value :=
      .map [("key", .text k), ("class", .text (ClassName.of names k)), ("count", .number (.int n))]
    .plain (Json.text .asciiFile (.map
      [("schema", .text s.name), ("distinct_keys", .number (.int usage.length)),
        ("keys", .list (rows.map fun (k, n) => key k n))]))
  else
    .table {
      title := some (s.name ++ ": " ++ Decimal.digits usage.length ++ " distinct style keys")
      columns := [⟨"Class", false⟩, ⟨"Count", true⟩, ⟨"Style key", false⟩]
      rows := rows.map fun (k, n) => [ClassName.of names k, Decimal.digits n, k] }

/-- What is said of the problems of a schema. -/
def remarks (report : LintReport) : List Output :=
  let remark (style lead text : String) : Output :=
    .problem (Markup.styled style lead ++ " " ++ text)
  report.warnings.map (remark "yellow" "warning:") ++ report.errors.map (remark "red" "error:")

/-- Reports on a schema and lists its style keys. -/
def inspectSchema (s : Schema) (top : Int) (json : Bool) : Outcome :=
  match s.lint with
  | .error e => .troubled [] (.data e)
  | .ok report =>
    if !report.isValid then .failed (remarks report)
    else
      .after (remarks report)
        (match Compiled.ofSchema s with
          | .error e => ended reportOf e.diagnostic? (.compile e)
          | .ok c => { outputs := [usageOutput s (Usage.ofTree c.tree) top json] })

def runInspect (disk : Disk m) (a : InspectArguments) : m Outcome := do
  match a.key with
  | some key => pure (explain key)
  | none =>
    match ← project disk a.config with
    | .error o => pure o
    | .ok p =>
      match ← schema disk p a.schema with
      | .error o => pure o
      | .ok s => pure (inspectSchema s a.top a.json)

/-- A track as a table. The last column has a color sample of four blanks. -/
def trackTable (name : String) (colors : List (Nat × Hsla)) : Output :=
  .table {
    title := some (name ++ " track")
    columns := [⟨"Tone", true⟩, ⟨"HSLA", false⟩, ⟨"Hex", false⟩, ⟨"", false⟩]
    rows := colors.map fun (tone, c) =>
      [Decimal.digits tone, ", ".intercalate (c.components.map Value.shown),
        (Color.hexOfComponents c.components).toOption.getD "", "    "] }

def runTones (a : ToneArguments) : Outcome :=
  match Tone.tracksOfHex a.hex a.mediumAnchor with
  | .error e => .failed [failure e.message]
  | .ok t =>
    if a.json then { outputs := [.plain (Json.text .asciiFile (.map (Tone.ToneTracks.toMap t)))] }
    else { outputs := [trackTable "soft" t.soft, trackTable "solid" t.solid] }

def runCommand (disk : Disk m) : Command → m Outcome
  | .build a => runBuild disk a
  | .inspect a => runInspect disk a
  | .tones a => pure (runTones a)

/-- Runs a command line. -/
def run (disk : Disk m) (words : List String) : m Outcome :=
  match Invocation.ofWords words with
  | .run c => Outcome.shown <$> runCommand disk c
  | .information => pure {}
  | .misuse => pure { exitCode := 2 }
  | .badPath => pure (.troubled [] (.file .badName))

end

end AtomicCss.Console

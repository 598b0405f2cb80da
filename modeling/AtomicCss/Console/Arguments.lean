import AtomicCss.Files.Tree
import AtomicCss.Number.Numeral
import AtomicCss.StyleKey.Decode

/-!
# Command lines

The words of a command line are options, with or without a value, and positional words. Options may
stand anywhere among the words of a command; of an option given twice the last one counts. Two
dashes end the options.
-/
namespace AtomicCss.Console

/-- What a word of a command line is read as. -/
inductive WordKind
  | text
  | path
  | whole

/-- An option: the names it goes by, and what its value is, if it has one. The next word or the
rest of its own is the value. -/
structure Switch where
  id : String
  long : List String
  short : Option Char := none
  value : Option WordKind := none

/-- The words of a command line, sorted. An option without a value has its name as value. -/
structure Words where
  options : List (String × String) := []
  positional : List String := []

namespace Words

def addOptions (found : List (String × String)) (w : Words) : Words :=
  { w with options := found ++ w.options }

def value? (w : Words) (id : String) : Option String :=
  (w.options.reverse.find? fun o => o.1 == id).map (·.2)

def has (w : Words) (id : String) : Bool := (w.value? id).isSome

end Words

/-- Options read off one word, and the option whose value is the next word. -/
abbrev Reading := List (String × String) × Option String

def readShort (switches : List Switch) : List Char → Option Reading
  | [] => some ([], none)
  | c :: rest =>
    match switches.find? fun s => s.short = some c with
    | none => none
    | some s =>
      if s.value.isSome then
        if rest.isEmpty then some ([], some s.id) else some ([(s.id, String.ofList rest)], none)
      else
        (readShort switches rest).map fun (found, open?) =>
          ((s.id, String.ofList ['-', c]) :: found, open?)

def readOption (switches : List Switch) (word : String) : Option Reading :=
  let (name, value) := match StyleKey.cutString "=" word with
    | some (name, value) => (name, some value)
    | none => (word, none)
  match switches.find? fun s => s.long.contains name, value with
  | some s, none => if s.value.isSome then some ([], some s.id) else some ([(s.id, name)], none)
  | some s, some v => if s.value.isSome then some ([(s.id, v)], none) else none
  | none, _ => if word.startsWith "--" then none else readShort switches (word.toList.drop 1)

def isOption (word : String) : Bool := word.startsWith "-" && word != "-"

/-- Sorts words. Unless `interspersed`, the first positional word ends the options. -/
def sort (switches : List Switch) (interspersed : Bool) : List String → Option Words
  | [] => some {}
  | word :: rest =>
    if word = "--" then some { positional := rest }
    else if isOption word then
      match readOption switches word, rest with
      | none, _ => none
      | some (found, none), rest => (sort switches interspersed rest).map (·.addOptions found)
      | some (_, some _), [] => none
      | some (found, some id), v :: rest =>
        (sort switches interspersed rest).map (·.addOptions (found ++ [(id, v)]))
    else if interspersed then
      (sort switches interspersed rest).map fun w => { w with positional := word :: w.positional }
    else some { positional := word :: rest }

structure BuildArguments where
  schema : Option Path
  config : Option Path
  output : Option Path
  forceState : Option Bool
  combineMedia : Option Bool

structure InspectArguments where
  schema : Option Path
  config : Option Path
  key : Option String
  top : Int
  json : Bool

structure ToneArguments where
  hex : String
  mediumAnchor : Bool
  json : Bool

inductive Command
  | build (a : BuildArguments)
  | inspect (a : InspectArguments)
  | tones (a : ToneArguments)

inductive Invocation
  | run (c : Command)
  /-- Help or the version is asked for. -/
  | information
  | misuse
  /-- No file can be at a path that is given. -/
  | badPath

/-- Why a word cannot be read as what it is meant to be. -/
def WordKind.refusal? (word : String) : WordKind → Option Invocation
  | .text => none
  | .path => if FileTree.isNamable (Path.ofText word) then none else some .badPath
  | .whole => if (Numeral.int? word.toList).isSome then none else some .misuse

/-- Why the words of a command cannot be read: the options in the order in which they are first
given, then the positional word. -/
def Words.refusal? (switches : List Switch) (kind : WordKind) (w : Words) : Option Invocation :=
  let ofOption (id : String) : Option Invocation := do
    let s ← switches.find? fun s => s.id == id
    WordKind.refusal? (← w.value? id) (← s.value)
  (w.options.findSome? fun o => ofOption o.1).or do kind.refusal? (← w.positional.head?)

def help : Switch := { id := "help", long := ["--help"] }

def configSwitch : Switch :=
  { id := "config", long := ["--config"], short := some 'c', value := some .path }

def buildSwitches : List Switch :=
  [help, configSwitch,
    { id := "output", long := ["--output"], short := some 'o', value := some .path },
    { id := "force", long := ["--force-state", "--no-force-state"] },
    { id := "combine", long := ["--combine-media", "--no-combine-media"] }]

def inspectSwitches : List Switch :=
  [help, configSwitch,
    { id := "key", long := ["--key"], short := some 'k', value := some .text },
    { id := "top", long := ["--top"], short := some 'n', value := some .whole },
    { id := "json", long := ["--json"] }]

def toneSwitches : List Switch :=
  [help, { id := "light", long := ["--prioritize-lightness"], short := some 'l' },
    { id := "json", long := ["--json"] }]

def globalSwitches : List Switch :=
  [help, { id := "version", long := ["--version"], short := some 'v' },
    { id := "verbose", long := ["--verbose"], short := some 'V' },
    { id := "completion", long := ["--install-completion", "--show-completion"] }]

/-- Whether the positive name of an option pair is given. -/
def Words.choice? (w : Words) (id : String) : Option Bool :=
  (w.value? id).map fun name => !name.startsWith "--no-"

def Words.path? (w : Words) (id : String) : Option Path := (w.value? id).map Path.ofText

def buildCommand? (w : Words) : Option Command :=
  if 1 < w.positional.length then none
  else
    some (.build
      { schema := w.positional.head?.map Path.ofText, config := w.path? "config"
        output := w.path? "output", forceState := w.choice? "force"
        combineMedia := w.choice? "combine" })

/-- The number of rows shown if none is given. -/
def defaultTop : Int := 20

def inspectCommand? (w : Words) : Option Command := do
  let top ← match w.value? "top" with
    | some s => Numeral.int? s.toList
    | none => some defaultTop
  guard (w.positional.length ≤ 1)
  some (.inspect
    { schema := w.positional.head?.map Path.ofText, config := w.path? "config"
      key := w.value? "key", top, json := w.has "json" })

def toneCommand? (w : Words) : Option Command :=
  match w.positional with
  | [hex] => some (.tones { hex, mediumAnchor := w.has "light", json := w.has "json" })
  | _ => none

def invoke (switches : List Switch) (kind : WordKind) (command? : Words → Option Command)
    (words : List String) : Invocation :=
  match sort switches true words with
  | none => .misuse
  | some w =>
    if w.has help.id then .information
    else
      (w.refusal? switches kind).getD
        (match command? w with
          | some c => .run c
          | none => .misuse)

/-- A whole command line: global options, the name of a command and its words. -/
def Invocation.ofWords (words : List String) : Invocation :=
  match sort globalSwitches false words with
  | none => .misuse
  | some w =>
    if w.has help.id || w.has "version" || w.has "completion" then .information
    else
      match w.positional with
      | "build" :: words => invoke buildSwitches .path buildCommand? words
      | "inspect" :: words => invoke inspectSwitches .path inspectCommand? words
      | "tones" :: words => invoke toneSwitches .text toneCommand? words
      | _ => .misuse

end AtomicCss.Console

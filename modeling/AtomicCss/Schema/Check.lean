import AtomicCss.Schema.Basic
import AtomicCss.Schema.Issue
import AtomicCss.Schema.Spelling

/-!
# Checking documents against the schema

A document is checked field by field. Text that spells a number counts as that number where one is
asked for, and so do flags; text that spells a flag counts as one. All issues are found, not only
the first; the rules on size tokens and states are applied only to what is otherwise valid.
-/
namespace AtomicCss.Check

/-- The text of a scalar, bytes being decoded; `broken` is said of bytes that are no text. -/
def textOf? (broken : IssueCode) : Scalar → Option (Checked String)
  | .text s => some (if Surrogate.isBroken s then .fail .stringUnicode else .valid s)
  | .bytes b =>
    match Scalar.decoded? b with
    | some s => some (if Surrogate.isBroken s then .fail broken else .valid s)
    | none => some (.fail broken)
  | _ => none

def scalarText (k : Scalar) : Checked String := (textOf? .stringUnicode k).getD (.fail .stringType)

def text : Document → Checked String
  | .scalar k => scalarText k
  | _ => .fail .stringType

def spelledInteger (s : String) : Checked Int :=
  match Spelling.integer s with
  | .ok n => .valid n
  | .error .noInteger => .fail .intParsing
  | .error .tooLong => .fail .intParsingSize

def integer : Document → Checked Int
  | .scalar (.number (.int n)) => .valid n
  | .scalar (.bool b) => .valid (if b then 1 else 0)
  | .scalar (.number (.float x)) =>
    match x.ratio?, x.integer? with
    | none, _ => .fail .finiteNumber
    | some _, none => .fail .intFromFloat
    | some _, some n => if n.natAbs < 0x8000000000000000 then .valid n else .fail .intParsingSize
  | .scalar k =>
    match textOf? .intParsing k with
    | some s => s.andThen spelledInteger
    | none => .fail .intType
  | _ => .fail .intType

/-- The words for true and for false. -/
def flagWords : List (String × Bool) :=
  [("0", false), ("1", true), ("true", true), ("false", false), ("t", true), ("f", false),
    ("yes", true), ("no", false), ("y", true), ("n", false), ("on", true), ("off", false)]

def spelledFlag (s : String) : Checked Bool :=
  match Dict.get? flagWords s.toLower with
  | some b => .valid b
  | none => .fail .boolParsing

/-- An integer as a flag. Those that 64 bits cannot hold are of the wrong type. -/
def integerFlag (fits : Bool) (n : Int) : Checked Bool :=
  if n = 0 then .valid false
  else if n = 1 then .valid true
  else .fail (if fits then .boolParsing else .boolType)

def flag : Document → Checked Bool
  | .scalar (.bool b) => .valid b
  | .scalar (.number (.int n)) => integerFlag (-0x8000000000000000 ≤ n && n < 0x8000000000000000) n
  | .scalar (.number (.float x)) =>
    match x.integer? with
    | some n => integerFlag (n.natAbs < 0x8000000000000000) n
    | none => .fail .boolType
  | .scalar k =>
    match textOf? .boolParsing k with
    | some s => s.andThen spelledFlag
    | none => .fail .boolType
  | _ => .fail .boolType

def number? : Document → Option Number
  | .scalar (.number n) => some n
  | .scalar (.bool b) => some (.int (if b then 1 else 0))
  | .scalar k =>
    match textOf? .numberOrMap k with
    | some (.valid s) => Spelling.number? s
    | _ => none
  | _ => none

def number (d : Document) : Checked Number :=
  match number? d with
  | some n => .valid n
  | none => .fail .numberOrMap

/-- A list whose items pass a check. A set counts as a list. -/
def listOf {α : Type} (item : Document → Checked α) (d : Document) : Checked (List α) :=
  match d.items? with
  | some items => .all (items.zipIdx.map fun (d, n) => (item d).below [Decimal.digits n])
  | none => .fail .listType

def mapOf {κ ν : Type} (key : Scalar → Checked κ) (value : Document → Checked ν) :
    Document → Checked (List (κ × ν))
  | .map members =>
    .all (members.map fun (k, d) =>
      .both ((key k).below [k.pathText, "[key]"]) ((value d).below [k.pathText]))
  | .circle => .valid []
  | _ => .fail .dictType

/-- A map whose keys are text and whose values pass a check. -/
def dictOf {ν : Type} (value : Document → Checked ν) (d : Document) : Checked (Dict ν) :=
  (mapOf scalarText value d).map Dict.ofList

def named {α : Type} (ofName? : String → Option α) (k : Scalar) : Checked α :=
  match textOf? .enum k with
  | some (.valid s) =>
    match ofName? s with
    | some a => .valid a
    | none => .fail .enum
  | _ => .fail .enum

def setMember {κ ν : Type} [DecidableEq κ] (members : List (κ × ν)) (k : κ) (v : ν) :
    List (κ × ν) :=
  match members with
  | [] => [(k, v)]
  | (j, w) :: members => if j = k then (j, v) :: members else (j, w) :: setMember members k v

/-- The members with each key once; the last of equal keys has its say. -/
def merged {κ ν : Type} [DecidableEq κ] (members : List (κ × ν)) : List (κ × ν) :=
  members.foldl (fun merged (k, v) => setMember merged k v) []

/-- A map whose keys are of a set of names, each given as text or as bytes, and whose values pass a
check. -/
def namedOf {κ ν : Type} [DecidableEq κ] (ofName? : String → Option κ)
    (value : Document → Checked ν) (d : Document) : Checked (List (κ × ν)) :=
  (mapOf (named ofName?) value d).map merged

def word (p : DecorationProperty) : Document → Checked (Word p)
  | .scalar k => named (Word.ofString? p) k
  | _ => .fail .enum

/-- The first of a field's names under which the field is given. -/
def given? (members : List (Scalar × Document)) (names : List String) :
    Option (String × Document) :=
  names.findSome? fun name => (Document.get? members name).map (name, ·)

/-- A field that may be left out or be null. -/
def optional {α : Type} (members : List (Scalar × Document)) (names : List String)
    (check : Document → Checked α) : Checked (Option α) :=
  match given? members names with
  | none => .valid none
  | some (_, .scalar .null) => .valid none
  | some (name, d) => ((check d).below [name]).map some

/-- A field that has a default if it is left out. -/
def withDefault {α : Type} (members : List (Scalar × Document)) (name : String) (default : α)
    (check : Document → Checked α) : Checked α :=
  match Document.get? members name with
  | none => .valid default
  | some d => (check d).below [name]

/-- Refuses members other than the fields, each field being given under one of its names. -/
def noOthers (members : List (Scalar × Document)) (fields : List (List String)) : Checked Unit :=
  let used := fields.filterMap fun names => (given? members names).map (·.1)
  (Checked.all (members.map fun (k, _) =>
    match k with
    | .text s => if used.contains s then .valid () else (Checked.fail .extraForbidden).below [s]
    | k => (Checked.fail .invalidKey).below [k.pathText])).map fun _ => ()

/-- A structure with the given fields and no others. -/
def closed {α : Type} (fields : List (List String)) (check : List (Scalar × Document) → Checked α) :
    Document → Checked α
  | .map members => (Checked.both (noOthers members fields) (check members)).map (·.2)
  | .circle => check []
  | _ => .fail .modelType

def decorations : Document → Checked Decorations :=
  closed
    [["textFont", "text_font"], ["textItalic", "text_italic"], ["textWeight", "text_weight"],
      ["textLineType", "text_line_type"], ["textAlign", "text_align"],
      ["borderStyle", "border_style"]]
    fun m => Decorations.mk
      <$> optional m ["textFont", "text_font"] (listOf text)
      <*> optional m ["textItalic", "text_italic"] flag
      <*> optional m ["textWeight", "text_weight"] (word .textWeight)
      <*> optional m ["textLineType", "text_line_type"] (word .textLineType)
      <*> optional m ["textAlign", "text_align"] (word .textAlign)
      <*> optional m ["borderStyle", "border_style"] (word .borderStyle)

def sizeName? (k : Scalar) : Option String :=
  match scalarText k with
  | .valid s => some s
  | .invalid _ => none

def widths? : List (Scalar × Document) → Option (List (String × Number))
  | [] => some []
  | (k, d) :: rest => do some ((← sizeName? k, ← number? d) :: (← widths? rest))

def sizeScale? : Document → Option SizeScale
  | .map members => (widths? members).map fun numbers => .widths (.ofList numbers)
  | d => (number? d).map .number

def sizes? : List (Scalar × Document) → Option (List (String × SizeScale))
  | [] => some []
  | (k, d) :: rest => do some ((← sizeName? k, ← sizeScale? d) :: (← sizes? rest))

def scale? : Document → Option Scale
  | .map members => (sizes? members).map fun scales => .sizes (.ofList scales)
  | d => (number? d).map .number

def scale (d : Document) : Checked Scale :=
  match scale? d with
  | some s => .valid s
  | none => .fail .numberOrMap

def unknownSize (shown : String) : IssueCode := .rule ("unknown size token " ++ shown)

def brokenScaleRule? (scales : Scales) : Option IssueCode :=
  scales.findSome? fun (_, s) =>
    match s with
    | .number _ => none
    | .sizes sizes =>
      (sizes.find? fun (size, _) => !isSizeToken size).map fun (size, _) =>
        unknownSize (Quoted.quote size)

def scales (d : Document) : Checked Scales :=
  (namedOf ScaleProperty.ofName? scale d).andThen fun s =>
    match brokenScaleRule? s with
    | some code => .fail code
    | none => .valid s

def palettes : Document → Checked Palettes :=
  dictOf (namedOf ColorProperty.ofName? (dictOf .valid))

def shadow : Document → Checked Shadow :=
  let numbers := namedOf InteractionState.ofName? number
  let colors := namedOf InteractionState.ofName? (listOf .valid)
  closed [["x"], ["y"], ["blur"], ["color"]] fun m => Shadow.mk
    <$> optional m ["x"] numbers <*> optional m ["y"] numbers <*> optional m ["blur"] numbers
    <*> optional m ["color"] colors

def brokenSizeRule? : Document → Option IssueCode
  | .map members =>
    (members.find? fun (k, _) => match k with
      | .text s => !isSizeToken s
      | _ => true).map fun (k, _) => unknownSize k.shown
  | _ => none

def brokenRadiusRule? (state : String) (d : Document) : Option IssueCode :=
  match InteractionState.ofName? state with
  | none => some (.rule ("unknown interaction state " ++ Quoted.quote state))
  | some .selected =>
    match d with
    | .map members => members.findSome? fun (_, d) => brokenSizeRule? d
    | .circle => none
    | _ => some (.rule "'selected' must be a map of rest/hover/pressed/focus")
  | some _ => brokenSizeRule? d

def borderRadius (d : Document) : Checked (Dict Document) :=
  (dictOf .valid d).andThen fun states =>
    match states.findSome? fun (state, d) => brokenRadiusRule? state d with
    | some code => .fail code
    | none => .valid states

def effects : Document → Checked Effects :=
  closed [["shadow"], ["borderRadius", "border_radius"]] fun m => Effects.mk
    <$> optional m ["shadow"] shadow
    <*> optional m ["borderRadius", "border_radius"] borderRadius

def element : Document → Checked Element :=
  closed [["decorations"], ["scales"], ["palettes"], ["effects"]] fun m => Element.mk
    <$> optional m ["decorations"] decorations <*> optional m ["scales"] scales
    <*> optional m ["palettes"] palettes <*> optional m ["effects"] effects

def component : Document → Checked Component :=
  closed [["elements"]] fun m => Component.mk
    <$> withDefault m "elements" [] (dictOf element)

/-- Checks a whole schema. Members other than its fields are ignored. -/
def schema : Document → Checked Schema
  | .map m => Schema.mk
    <$> withDefault m "name" "untitled" text
    <*> optional m ["version"] (listOf integer)
    <*> optional m ["author"] text
    <*> withDefault m "breakpoints" standardBreakpoints (dictOf integer)
    <*> withDefault m "components" [] (dictOf component)
  | _ => .fail .modelType

end AtomicCss.Check

import AtomicCss.Value.Basic
import AtomicCss.Yaml.Cursor
import AtomicCss.Yaml.Scalar

/-!
# Writing YAML

Maps and lists are written as block collections, one step of two columns for a map, and the entries
of a list at the column of the key before them. Text is written plain where it reads back as the
same text, else between single quotes, and between double quotes where characters must be escaped.
Long lines are broken at single spaces.
-/
namespace AtomicCss.Yaml

/-- Lines are broken at the first chance after this column. -/
def lineWidth : Nat := 80

/-- What has been written, and what decides whether a space or a line break is needed next. -/
structure Sheet where
  text : String := ""
  column : Nat := 0
  /-- The last thing written is white space. -/
  spaced : Bool := true
  /-- Only indentation and entry marks stand on the line. -/
  fresh : Bool := true

namespace Sheet

def put (o : Sheet) (cs : List Char) : Sheet :=
  { o with text := o.text ++ String.ofList cs, column := o.column + cs.length }

def lineBreak (o : Sheet) (c : Char) : Sheet :=
  { text := o.text.push c, column := 0, spaced := true, fresh := true }

/-- Goes to a column, on a new line unless the present one is still empty up to there. -/
def indent (o : Sheet) (column : Nat) : Sheet :=
  let o := if !o.fresh || column < o.column || (o.column = column && !o.spaced) then
    o.lineBreak '\n' else o
  if o.column < column then
    { o.put (List.replicate (column - o.column) ' ') with spaced := true }
  else o

/-- Writes a mark, after a space if one is needed. -/
def mark (o : Sheet) (s : String) (spaceBefore staysFresh : Bool) : Sheet :=
  let o := o.put ((if o.spaced || !spaceBefore then [] else [' ']) ++ s.toList)
  { o with spaced := false, fresh := o.fresh && staysFresh }

end Sheet

inductive Style
  | plain | single | double
  deriving DecidableEq

/-- Characters that only an escape can stand for. -/
def isSpecial (c : Char) : Bool :=
  let n := c.toNat
  !(c = '\n' || (0x20 ≤ n && n ≤ 0x7E) || n = 0x85 || (0xA0 ≤ n && n ≤ 0xD7FF)
    || (0xE000 ≤ n && n ≤ 0xFFFD && n ≠ 0xFEFF) || (0x10000 ≤ n && n < 0x10FFFF))

/-- Whether a mark that would end or comment out a plain text stands after its beginning. -/
def hasInnerMark (afterGap : Bool) : List Char → Bool
  | [] => false
  | c :: cs =>
    (c = ':' && opensGap cs) || (c = '#' && afterGap) || hasInnerMark (isGap c) cs

/-- Whether a text has a mark that a plain text may not have. -/
def hasMark (cs : List Char) : Bool :=
  match cs with
  | [] => false
  | c :: rest =>
    (Text.after? "---".toList cs).isSome || (Text.after? "...".toList cs).isSome
      || "#,[]\x7b\x7d&*!|>'\"%@`".toList.contains c
      || ((c = '?' || c = ':' || c = '-') && opensGap rest)
      || hasInnerMark (isGap c) rest

/-- Whether two neighbouring characters satisfy a condition. -/
def hasPair (p : Char → Char → Bool) : List Char → Bool
  | c :: d :: cs => p c d || hasPair p (d :: cs)
  | _ => false

/-- Whether a text begins or ends with a space or a line end. -/
def hasLooseEnd (cs : List Char) : Bool :=
  let loose (c : Char) : Bool := c = ' ' || isBreak c
  cs.head?.any loose || cs.getLast?.any loose

def isMultiline (cs : List Char) : Bool := cs.any isBreak

/-- Whether a text may be written plain, as far as its characters go. -/
def allowsPlain (cs : List Char) : Bool :=
  !(hasLooseEnd cs || isMultiline cs || hasMark cs || cs.any isSpecial)

/-- Whether a text may stand between single quotes. -/
def allowsSingle (cs : List Char) : Bool :=
  !(cs.any isSpecial
    || hasPair (fun c d => (c = ' ' && isBreak d) || (isBreak c && d = ' ')) cs)

/-- The style of a text. A key that is written before a colon stays on one line. -/
def styleOf (simpleKey : Bool) (s : String) : Style :=
  let cs := s.toList
  if Form.ofText s = .text && allowsPlain cs then .plain
  else if allowsSingle cs && !(simpleKey && isMultiline cs) then .single
  else .double

/-- A maximal run of words, spaces or line ends. -/
def runs (kind : Char → Nat) : List Char → List (List Char)
  | [] => []
  | c :: cs =>
    match runs kind cs with
    | (d :: run) :: rest =>
      if kind c = kind d then (c :: d :: run) :: rest else [c] :: (d :: run) :: rest
    | rest => [c] :: rest

def runKind (c : Char) : Nat := if c = ' ' then 1 else if isBreak c then 2 else 0

/-- Writes the runs of a plain text. -/
def putPlain (split : Bool) (column : Nat) (o : Sheet) (cs : List Char) : Sheet :=
  let o := if o.spaced then o else o.put [' ']
  (runs runKind cs).foldl (fun o run =>
    if run = [' '] && lineWidth < o.column && split then
      { o.indent column with spaced := false, fresh := false }
    else o.put run) { o with spaced := false, fresh := false }

/-- Writes the line ends within single quotes: a line feed is written twice. -/
def putBreaks (column : Nat) (o : Sheet) (run : List Char) : Sheet :=
  let o := if run.head? = some '\n' then o.lineBreak '\n' else o
  (run.foldl (fun o c => o.lineBreak c) o).indent column

/-- Writes the runs of a text between single quotes. A space at either end is not broken at. -/
def putSingleRuns (split : Bool) (column : Nat) : (first : Bool) → List (List Char) → Sheet → Sheet
  | _, [], o => o
  | first, run :: rest, o =>
    let inner := split && !first && !rest.isEmpty
    let o :=
      if run = [' '] && lineWidth < o.column && inner then o.indent column
      else if run.any isBreak then putBreaks column o run
      else o.put (run.flatMap fun c => if c = '\'' then ['\'', '\''] else [c])
    putSingleRuns split column false rest o

def putSingle (split : Bool) (column : Nat) (o : Sheet) (cs : List Char) : Sheet :=
  (putSingleRuns split column true (runs runKind cs) (o.mark "'" true false)).mark "'" false false

def escapeLetters : List (Char × Char) :=
  [('\x00', '0'), ('\x07', 'a'), ('\x08', 'b'), ('\t', 't'), ('\n', 'n'), ('\x0b', 'v'),
    ('\x0c', 'f'), ('\r', 'r'), ('\x1b', 'e'), ('"', '"'), ('\\', '\\'), ('\x85', 'N'),
    ('\xa0', '_'), ('\u2028', 'L'), ('\u2029', 'P')]

/-- Whether a character is escaped between double quotes. -/
def needsEscape (c : Char) : Bool :=
  let n := c.toNat
  c = '"' || c = '\\' || n = 0x85 || n = 0x2028 || n = 0x2029 || n = 0xFEFF
    || !((0x20 ≤ n && n ≤ 0x7E) || (0xA0 ≤ n && n ≤ 0xD7FF) || (0xE000 ≤ n && n ≤ 0xFFFD))

def escape (c : Char) : List Char :=
  let upper (cs : List Char) : List Char := cs.map Char.toUpper
  match escapeLetters.find? fun e => e.1 = c with
  | some (_, letter) => ['\\', letter]
  | none =>
    if c.toNat ≤ 0xFF then '\\' :: 'x' :: upper (Quoted.hex 2 c.toNat)
    else if c.toNat ≤ 0xFFFF then '\\' :: 'u' :: upper (Quoted.hex 4 c.toNat)
    else '\\' :: 'U' :: upper (Quoted.hex 8 c.toNat)

/-- Writes a text between double quotes from some place on. `pending` is read but not written. A
line is broken by a backslash before a space or after an escape. -/
def putDoubleFrom (split : Bool) (column : Nat) :
    (first : Bool) → (pending : List Char) → List Char → Sheet → Sheet
  | _, pending, [], o => o.put pending
  | first, pending, c :: rest, o =>
    let escaped := needsEscape c
    let o := if escaped then (o.put pending).put (escape c) else o
    let pending := if escaped then [] else pending
    let width := if escaped then o.column - 1 else o.column + pending.length
    if !first && !rest.isEmpty && (c = ' ' || pending.isEmpty) && lineWidth < width && split then
      let o := { (o.put (pending ++ ['\\'])).indent column with spaced := false, fresh := false }
      let next := if escaped then rest.head? else some c
      let o := if next = some ' ' then o.put ['\\'] else o
      putDoubleFrom split column false (if escaped then [] else [c]) rest o
    else putDoubleFrom split column false (if escaped then [] else pending ++ [c]) rest o

def putDouble (split : Bool) (column : Nat) (o : Sheet) (cs : List Char) : Sheet :=
  (putDoubleFrom split column true [] cs (o.mark "\"" true false)).mark "\"" false false

/-- Writes a text; lines after the first begin at a column. -/
def putText (simpleKey : Bool) (column : Nat) (o : Sheet) (s : String) : Sheet :=
  let put := match styleOf simpleKey s with
    | .plain => putPlain
    | .single => putSingle
    | .double => putDouble
  put (!simpleKey) column o s.toList

/-- Floats keep a point before an exponent. -/
def floatNotation : Decimal.Notation :=
  { Decimal.Notation.program with
    pointBeforeExponent := true, infinity := ".inf", notANumber := ".nan" }

def numberText : Number → String
  | .int n => Number.intText n
  | .float x => floatNotation.text x

/-- The longest text that is written before its colon as a key. -/
def simpleKeyLimit : Nat := 122

/-- Whether a key can be written before its colon. -/
def isSimpleKey (k : String) : Bool :=
  !k.isEmpty && k.length ≤ simpleKeyLimit && !isMultiline k.toList

/-- Writes a key with its colon at a column. -/
def putKey (column : Nat) (o : Sheet) (k : String) : Sheet :=
  let o := o.indent column
  if isSimpleKey k then (putText true (column + 2) o k).mark ":" false false
  else
    let o := putText false (column + 2) (o.mark "?" true true) k
    (o.indent column).mark ":" true true

mutual

/-- Writes a value inside a collection at a column. -/
def putValue (column : Nat) (inMap : Bool) (o : Sheet) : Value → Sheet
  | .null => putPlain false column o "null".toList
  | .bool b => putPlain false column o (if b then "true" else "false").toList
  | .number n => putPlain false column o (numberText n).toList
  | .text s => putText false (column + 2) o s
  | .list [] => o.mark "[]" true false
  | .list (v :: items) => putItems (if inMap && !o.fresh then column else column + 2) o (v :: items)
  | .map [] => o.mark "\x7b\x7d" true false
  | .map (m :: members) => putMembers (column + 2) o (m :: members)

def putItems (column : Nat) (o : Sheet) : List Value → Sheet
  | [] => o
  | v :: items =>
    putItems column (putValue column false ((o.indent column).mark "-" true true) v) items

def putMembers (column : Nat) (o : Sheet) : List (String × Value) → Sheet
  | [] => o
  | (k, v) :: members =>
    putMembers column (putValue column true (putKey column o k) v) members

end

/-- The text of a map as a document. -/
def text (members : Dict Value) : String :=
  if members.isEmpty then "\x7b\x7d\n" else ((putMembers 0 {} members).indent 0).text

end AtomicCss.Yaml

import AtomicCss.Yaml.Presentation

/-!
# Tokens of a YAML stream

The tokens of a stream make its structure explicit: the beginning and end of block collections,
which the stream shows by columns only, and the keys of mappings, which it shows only by the colon
after them. A token that may turn out to be a key is remembered until the colon comes; the key mark
is then inserted before it. Where a character cannot be made of its code the tokens end with a mark.
-/
namespace AtomicCss.Yaml

inductive Token
  /-- The version of the language, of which the major number is kept. -/
  | version (major : Nat)
  /-- The beginning of the tags that a handle stands for. -/
  | handle (name start : String)
  | directive
  | documentStart
  | documentEnd
  | blockSequenceStart
  | blockMappingStart
  | blockEnd
  | flowSequenceStart
  | flowSequenceEnd
  | flowMappingStart
  | flowMappingEnd
  | blockEntry
  | flowEntry
  | key
  | value
  | reference (name : String)
  | anchor (name : String)
  /-- A tag: what follows its handle, if it has one. -/
  | tag (handle : Option String) (name : String)
  | scalar (text : String) (plain : Bool)
  | unreadable (e : DataFault)
  deriving DecidableEq

/-- A token that may be a key: where it stands, and whether it must be one because it opens a line
of a block mapping. -/
structure KeyCandidate where
  tokenIndex : Nat
  required : Bool
  index : Nat
  line : Nat
  column : Nat

/-- How far a stream has been read. -/
structure Scan where
  cursor : Cursor
  tokens : Array Token := #[]
  flowLevel : Nat := 0
  /-- The column of the innermost block collection, with those of the outer ones. -/
  indent : Int := -1
  outer : List Int := []
  keyAllowed : Bool := true
  /-- Whether something cannot be read on. -/
  stopped : Bool := false
  /-- The candidates by flow level. -/
  candidates : List (Nat × KeyCandidate) := []

namespace Scan

def push (s : Scan) (t : Token) : Scan := { s with tokens := s.tokens.push t }

def inFlow (s : Scan) : Bool := s.flowLevel != 0

/-- Ends block collections to the right of a column. -/
def unwind (s : Scan) (column : Int) : Scan :=
  if s.inFlow then s
  else
    let ended := s.indent :: s.outer
    let stay := ended.dropWhile (column < ·)
    let count := ended.length - stay.length
    { s with
      indent := stay.headD (-1)
      outer := stay.tail
      tokens := s.tokens ++ Array.replicate count Token.blockEnd }

/-- Opens a block collection at a column, unless one stands there. -/
def openAt (s : Scan) (column : Nat) (t : Token) (tokenIndex : Nat) : Scan :=
  if s.indent < column then
    { s with
      indent := column
      outer := s.indent :: s.outer
      tokens := s.tokens.insertIdxIfInBounds tokenIndex t }
  else s

/-- Gives up the candidate of the present flow level, which must not have been required. -/
def dropCandidate (s : Scan) : Option Scan :=
  if s.candidates.any fun (level, k) => level = s.flowLevel && k.required then none
  else some { s with candidates := s.candidates.filter fun (level, _) => level ≠ s.flowLevel }

/-- Gives up candidates that are on an earlier line or too far back. -/
def dropStale (s : Scan) : Option Scan :=
  let stale (k : KeyCandidate) : Bool :=
    k.line ≠ s.cursor.line || 1024 < s.cursor.index - k.index
  if s.candidates.any fun (_, k) => stale k && k.required then none
  else some { s with candidates := s.candidates.filter fun (_, k) => !stale k }

/-- Remembers the next token as a candidate. -/
def saveCandidate (s : Scan) : Option Scan := do
  if !s.keyAllowed then some s
  else
    let s ← s.dropCandidate
    let k : KeyCandidate :=
      { tokenIndex := s.tokens.size
        required := !s.inFlow && s.indent == s.cursor.column
        index := s.cursor.index
        line := s.cursor.line
        column := s.cursor.column }
    some { s with candidates := (s.flowLevel, k) :: s.candidates }

/-- Reads a token of so many characters. -/
def take (s : Scan) (count : Nat) (t : Token) : Scan :=
  { s with cursor := s.cursor.skip count }.push t

/-- Skips spaces, comments and line ends. After a line end a key may follow. -/
def toNext : (fuel : Nat) → Scan → Scan
  | 0, s => s
  | fuel + 1, s =>
    let c := s.cursor.dropSpaces.dropComment
    match c.break? with
    | some (_, c) => toNext fuel { s with cursor := c, keyAllowed := s.keyAllowed || !s.inFlow }
    | none => { s with cursor := c }

/-- What is done before a directive, a document marker or the end of the stream. -/
def endDocument (s : Scan) : Option Scan := do
  let s ← (s.unwind (-1)).dropCandidate
  some { s with keyAllowed := false }

def isWordChar (c : Char) : Bool := c.isAlphanum || c = '-' || c = '_'

def versionNumber? (c : Cursor) : Option (List Char × Cursor) :=
  let (digits, c) := c.span Char.isDigit
  if digits.isEmpty then none else some (digits, c)

/-- The rest of a version directive. -/
def version? (c : Cursor) : Option (Token × Cursor) := do
  let (major, c) ← versionNumber? c.dropSpaces
  guard (c.head? = some '.')
  let (_, c) ← versionNumber? c.next
  some (.version (Numeral.ofDigits (Json.digitValues major)), c)

/-- The handle of a tag: a mark, two marks, or a word between marks. The first may stand before a
space. -/
def handle? (c : Cursor) : Option (String × Cursor) := do
  guard (c.head? = some '!')
  if c.next.head? = some ' ' then some ("!", c.next)
  else
    let (word, c) := c.next.span isWordChar
    guard (c.head? = some '!')
    some ("!" ++ String.ofList word ++ "!", c.next)

def isTagChar (c : Char) : Bool :=
  c.isAlphanum || "-;/?:@&=+$,_.!~*'()[]%".toList.contains c

/-- Bytes as pairs of hexadecimal digits, each after a percent sign. -/
def escapedBytes : List Char → Option (List UInt8 × List Char)
  | '%' :: a :: b :: cs => do
    let n ← Digit.hexNumber? [a, b]
    let (bytes, cs) ← escapedBytes cs
    some (UInt8.ofNat n :: bytes, cs)
  | '%' :: _ => none
  | cs => some ([], cs)

/-- The name of a tag. What is escaped in it must be text. -/
def tagChars : (fuel : Nat) → Cursor → Option (List Char × Cursor)
  | 0, _ => none
  | fuel + 1, c =>
    match c.rest with
    | '%' :: _ => do
      let (bytes, rest) ← escapedBytes c.rest
      let text ← Scalar.decoded? bytes
      let (more, c) ← tagChars fuel (c.skip (c.rest.length - rest.length))
      some (text.toList ++ more, c)
    | ch :: _ =>
      if isTagChar ch then (tagChars fuel c.next).map fun (more, c) => (ch :: more, c)
      else some ([], c)
    | [] => some ([], c)

/-- A name of at least one character as written. -/
def tagName? (c : Cursor) : Option (String × Cursor) := do
  guard (c.head?.any isTagChar)
  let (name, c) ← tagChars (c.rest.length + 1) c
  some (String.ofList name, c)

def endsTag (c : Cursor) : Bool := c.head?.all fun ch => ch = ' ' || isBreak ch

/-- The rest of a directive that gives a handle a meaning. -/
def handleMeaning? (c : Cursor) : Option (Token × Cursor) := do
  let (name, c) ← handle? c.dropSpaces
  guard (c.head? = some ' ')
  let (start, c) ← tagName? c.dropSpaces
  guard (endsTag c)
  some (.handle name start, c)

/-- A directive. Those for other uses are passed over. -/
def directive (s : Scan) : Option Scan := do
  let s ← s.endDocument
  let (name, c) := s.cursor.next.span isWordChar
  guard (!name.isEmpty && endsTag c)
  let (token, c) ←
    if name = "YAML".toList then version? c
    else if name = "TAG".toList then handleMeaning? c
    else some (.directive, (c.span fun ch => !isBreak ch).2)
  guard (endsTag c)
  let c := c.dropSpaces.dropComment
  guard (c.head?.all isBreak)
  some ({ s with cursor := c }.push token)

/-- A marker of three characters. -/
def documentMarker (s : Scan) (t : Token) : Option Scan := do
  let s ← s.endDocument
  some (s.take 3 t)

def flowStart (s : Scan) (t : Token) : Option Scan := do
  let s ← s.saveCandidate
  some ({ s with flowLevel := s.flowLevel + 1, keyAllowed := true }.take 1 t)

def flowEnd (s : Scan) (t : Token) : Option Scan := do
  let s ← s.dropCandidate
  some ({ s with flowLevel := s.flowLevel - 1, keyAllowed := false }.take 1 t)

def flowEntry (s : Scan) : Option Scan := do
  let s ← s.dropCandidate
  some ({ s with keyAllowed := true }.take 1 .flowEntry)

def blockEntry (s : Scan) : Option Scan := do
  guard (s.inFlow || s.keyAllowed)
  let s := if s.inFlow then s else s.openAt s.cursor.column .blockSequenceStart s.tokens.size
  let s ← s.dropCandidate
  some ({ s with keyAllowed := true }.take 1 .blockEntry)

def explicitKey (s : Scan) : Option Scan := do
  guard (s.inFlow || s.keyAllowed)
  let s := if s.inFlow then s else s.openAt s.cursor.column .blockMappingStart s.tokens.size
  let s ← s.dropCandidate
  some ({ s with keyAllowed := !s.inFlow }.take 1 .key)

/-- The mark of a value. The candidate of the level becomes a key. -/
def valueMark (s : Scan) : Option Scan := do
  match s.candidates.find? fun (level, _) => level = s.flowLevel with
  | some (_, k) =>
    let s := { s with
      candidates := s.candidates.filter fun (level, _) => level ≠ s.flowLevel
      tokens := s.tokens.insertIdxIfInBounds k.tokenIndex .key
      keyAllowed := false }
    let s := if s.inFlow then s else s.openAt k.column .blockMappingStart k.tokenIndex
    some (s.take 1 .value)
  | none =>
    guard (s.inFlow || s.keyAllowed)
    let s := if s.inFlow then s else s.openAt s.cursor.column .blockMappingStart s.tokens.size
    some ({ s with keyAllowed := !s.inFlow }.take 1 .value)

/-- The characters that may follow the name of an anchor or alias. -/
def endsName (c : Char) : Bool := isGap c || "?:,]\x7d%@`".toList.contains c

/-- The name of an anchor or alias. -/
def named (s : Scan) (t : String → Token) : Option Scan := do
  let s ← s.saveCandidate
  let (name, c) := s.cursor.next.span isWordChar
  guard (!name.isEmpty && c.head?.all endsName)
  some ({ s with cursor := c, keyAllowed := false }.push (t (String.ofList name)))

/-- A tag: verbatim between angle brackets, after a handle, or the mark alone. -/
def tag? (c : Cursor) : Option (Token × Cursor) := do
  match c.rest with
  | '!' :: '<' :: _ =>
    let (name, c) ← tagName? (c.skip 2)
    guard (c.head? = some '>')
    some (.tag none name, c.next)
  | _ :: rest =>
    if opensGap rest then some (.tag none "!", c.next)
    else
      let hasHandle := (rest.takeWhile fun ch => ch ≠ ' ' && !isBreak ch).contains '!'
      let (handle, c) ← if hasHandle then handle? c else some ("!", c.next)
      let (name, c) ← tagName? c
      some (.tag (some handle) name, c)
  | [] => none

def tagMark (s : Scan) : Option Scan := do
  let s ← s.saveCandidate
  let (token, c) ← tag? s.cursor
  guard (endsTag c)
  some ({ s with cursor := c, keyAllowed := false }.push token)

def blockScalar (s : Scan) (fold : Bool) : Option Scan := do
  let s ← s.dropCandidate
  let (text, c) ← block fold s.indent s.cursor
  some ({ s with cursor := c, keyAllowed := true }.push (.scalar (String.ofList text) false))

def quotedScalar (s : Scan) (mark : Char) : Option Scan := do
  let s ← s.saveCandidate
  match quoted mark s.cursor with
  | .ok (text, c) =>
    some ({ s with cursor := c, keyAllowed := false }.push (.scalar (String.ofList text) false))
  | .error (.fault e) => some ({ s with stopped := true }.push (.unreadable e))
  | .error .malformed => none

def plainScalar (s : Scan) : Option Scan := do
  let s ← s.saveCandidate
  let (text, c, ended) := plain s.inFlow (s.indent + 1) s.cursor
  some ({ s with cursor := c, keyAllowed := ended }.push (.scalar (String.ofList text) true))

/-- Characters with which a plain scalar never begins, or only before a word. -/
def isIndicator (c : Char) : Bool := "-?:,[]\x7b\x7d#&*!|>'\"%@`".toList.contains c

/-- Whether a plain scalar begins here. -/
def opensPlain (s : Scan) : Bool :=
  match s.cursor.rest with
  | [] => false
  | c :: rest =>
    (!isGap c && !isIndicator c)
      || (!opensGap rest && (c = '-' || (!s.inFlow && (c = '?' || c = ':'))))

/-- The next token, if the stream has not ended. -/
def one (s : Scan) : Option Scan :=
  let c := s.cursor
  let column0 := c.column = 0
  match c.rest with
  | [] => none
  | ch :: rest =>
    let mark := opensGap rest
    if ch = '%' && column0 then s.directive
    else if ch = '-' && column0 && isMarker c.rest then s.documentMarker .documentStart
    else if ch = '.' && column0 && isMarker c.rest then s.documentMarker .documentEnd
    else if ch = '[' then s.flowStart .flowSequenceStart
    else if ch = '\x7b' then s.flowStart .flowMappingStart
    else if ch = ']' then s.flowEnd .flowSequenceEnd
    else if ch = '\x7d' then s.flowEnd .flowMappingEnd
    else if ch = ',' then s.flowEntry
    else if ch = '-' && mark then s.blockEntry
    else if ch = '?' && (s.inFlow || mark) then s.explicitKey
    else if ch = ':' && (s.inFlow || mark) then s.valueMark
    else if ch = '*' then s.named .reference
    else if ch = '&' then s.named .anchor
    else if ch = '!' then s.tagMark
    else if ch = '|' && !s.inFlow then s.blockScalar false
    else if ch = '>' && !s.inFlow then s.blockScalar true
    else if ch = '\'' || ch = '"' then s.quotedScalar ch
    else if s.opensPlain then s.plainScalar
    else none

/-- All tokens to the end of the stream. -/
def all : (fuel : Nat) → Scan → Option (List Token)
  | 0, _ => none
  | fuel + 1, s => do
    if s.stopped then return s.tokens.toList
    let s ← (s.toNext (s.cursor.rest.length + 1)).dropStale
    let s := s.unwind s.cursor.column
    if s.cursor.rest.isEmpty then
      let s ← s.endDocument
      some s.tokens.toList
    else all fuel (← s.one)

end Scan

/-- The tokens of a text. A mark of the byte order may stand at its beginning. -/
def Token.ofText? (text : List Char) : Option (List Token) := do
  guard (text.all isAllowed)
  let text := match text with
    | '\ufeff' :: text => text
    | text => text
  Scan.all (text.length + 2) { cursor := { rest := text } }

end AtomicCss.Yaml

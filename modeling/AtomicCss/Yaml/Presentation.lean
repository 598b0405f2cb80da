import AtomicCss.Json.Reader
import AtomicCss.Yaml.Cursor
import AtomicCss.Yaml.Error

/-!
# Scalars as written

A scalar is written plain, between single or double quotes, or as a literal or folded block. Each
reader takes the cursor at the beginning of the scalar and gives the text and the cursor after it.
Lines are folded: one line end is a space, and of more the first is dropped.
-/
namespace AtomicCss.Yaml

/-- A folded line end, given the line ends after it. -/
def folded (first : Char) (more : List Char) : List Char :=
  if first ≠ '\n' then first :: more else if more.isEmpty then [' '] else more

/-- Characters that end a plain scalar inside a flow collection. -/
def isFlowMark (c : Char) : Bool :=
  c = ',' || c = '?' || c = '[' || c = ']' || c = '\x7b' || c = '\x7d'

/-- Whether a colon before these characters ends a plain scalar. -/
def endsKey (flow : Bool) (cs : List Char) : Bool :=
  opensGap cs || (flow && cs.head?.any fun c => c ≠ '?' && isFlowMark c)

/-- The characters up to the next gap or mark. -/
def plainWord (flow : Bool) : List Char → List Char
  | [] => []
  | c :: cs =>
    if isGap c || (c = ':' && endsKey flow cs) || (flow && isFlowMark c) then []
    else c :: plainWord flow cs

/-- The line ends within a plain scalar, up to a document marker. -/
def plainBreaks : (fuel : Nat) → Cursor → Option (List Char × Cursor)
  | 0, c => some ([], c)
  | fuel + 1, c =>
    if isMarker c.rest && c.column = 0 then none
    else
      let c := c.dropSpaces
      match c.break? with
      | some (b, c) => (plainBreaks fuel c).map fun (bs, c) => (b :: bs, c)
      | none => some ([], c)

/-- The gap after a word: its text, none if the scalar ends there, and whether it has a line end. -/
def plainGap (c : Cursor) : List Char × Cursor × Bool :=
  let (spaces, c) := c.span (· = ' ')
  match c.break? with
  | none => (spaces, c, false)
  | some (b, c) =>
    match plainBreaks (c.rest.length + 1) c with
    | some (bs, c) => (folded b bs, c, true)
    | none => ([], c, true)

/-- The words of a plain scalar from a gap on, the cursor after them and whether the line has
ended. -/
def plainFrom (flow : Bool) (indent : Int) :
    (fuel : Nat) → (gap : List Char) → Bool → Cursor → List Char × Cursor × Bool
  | 0, _, ended, c => ([], c, ended)
  | fuel + 1, gap, ended, c =>
    let word := if c.head? = some '#' then [] else plainWord flow c.rest
    if word.isEmpty then ([], c, ended)
    else
      let (next, c, ended) := plainGap (c.skip word.length)
      if next.isEmpty || c.head? = some '#' || (!flow && c.column < indent) then
        (gap ++ word, c, ended)
      else
        let (text, c, ended) := plainFrom flow indent fuel next ended c
        (gap ++ word ++ text, c, ended)

def plain (flow : Bool) (indent : Int) (c : Cursor) : List Char × Cursor × Bool :=
  plainFrom flow indent (c.rest.length + 1) [] false c

def escapes : List (Char × Char) :=
  [('0', '\x00'), ('a', '\x07'), ('b', '\x08'), ('t', '\t'), ('\t', '\t'), ('n', '\n'),
    ('v', '\x0b'), ('f', '\x0c'), ('r', '\r'), ('e', '\x1b'), (' ', ' '), ('"', '"'), ('\\', '\\'),
    ('/', '/'), ('N', '\x85'), ('_', '\xa0'), ('L', '\u2028'), ('P', '\u2029')]

/-- The number of hexadecimal digits after a letter. -/
def escapeWidth? (c : Char) : Option Nat :=
  if c = 'x' then some 2 else if c = 'u' then some 4 else if c = 'U' then some 8 else none

/-- The character with a code. Codes that no character has differ in whether 31 bits hold them. -/
def charOfCode (n : Nat) : Except ReadError Char :=
  if 0x80000000 ≤ n then .error (.fault .codeTooLarge)
  else if 0x110000 ≤ n then .error (.fault .noSuchValue)
  else .ok (Surrogate.charOf n)

def orMalformed {α : Type} (a : Option α) : Except ReadError α :=
  match a with
  | some a => .ok a
  | none => .error .malformed

/-- The character of an escape, given the cursor after the backslash. -/
def escaped (c : Cursor) : Except ReadError (Char × Cursor) := do
  let letter ← orMalformed c.head?
  match escapes.find? fun e => e.1 = letter with
  | some (_, ch) => pure (ch, c.next)
  | none =>
    let width ← orMalformed (escapeWidth? letter)
    let digits := c.next.rest.take width
    if digits.length ≠ width then throw .malformed
    pure (← charOfCode (← orMalformed (Digit.hexNumber? digits)), c.next.skip width)

/-- The line ends after the first one in a quoted scalar. A document marker is refused. -/
def quotedBreaks : (fuel : Nat) → Cursor → Except ReadError (List Char × Cursor)
  | 0, _ => throw .malformed
  | fuel + 1, c =>
    if isMarker c.rest then throw .malformed
    else
      let c := (c.span fun ch => ch = ' ' || ch = '\t').2
      match c.break? with
      | some (b, c) => (quotedBreaks fuel c).map fun (bs, c) => (b :: bs, c)
      | none => pure ([], c)

def quotedGap (c : Cursor) : Except ReadError (List Char × Cursor) := do
  let (spaces, c) := c.span fun ch => ch = ' ' || ch = '\t'
  match c.break? with
  | none => pure (spaces, c)
  | some (b, c) =>
    let (bs, c) ← quotedBreaks (c.rest.length + 1) c
    pure (folded b bs, c)

/-- The text up to the closing quote. -/
def quotedFrom (mark : Char) : (fuel : Nat) → Cursor → Except ReadError (List Char × Cursor)
  | 0, _ => throw .malformed
  | fuel + 1, c => do
    let ch ← orMalformed c.head?
    if isGap ch then
      let (gap, c) ← quotedGap c
      let (text, c) ← quotedFrom mark fuel c
      pure (gap ++ text, c)
    else if ch = mark then
      if mark = '\'' && c.next.head? = some '\'' then
        let (text, c) ← quotedFrom mark fuel c.next.next
        pure ('\'' :: text, c)
      else pure ([], c.next)
    else if mark = '"' && ch = '\\' then
      match c.next.break? with
      | some (_, c) =>
        let (bs, c) ← quotedBreaks (c.rest.length + 1) c
        let (text, c) ← quotedFrom mark fuel c
        pure (bs ++ text, c)
      | none =>
        let (d, c) ← escaped c.next
        let (text, c) ← quotedFrom mark fuel c
        pure (d :: text, c)
    else
      let (text, c) ← quotedFrom mark fuel c.next
      pure (ch :: text, c)

/-- A scalar between quotes. -/
def quoted (mark : Char) (c : Cursor) : Except ReadError (List Char × Cursor) :=
  quotedFrom mark (c.rest.length + 1) c.next

/-- What becomes of the line ends at the end of a block. -/
inductive Chomping
  | strip | clip | keep
  deriving DecidableEq

def chomping? (c : Char) : Option Chomping :=
  if c = '+' then some .keep else if c = '-' then some .strip else none

def increment? (c : Char) : Option Nat :=
  if '1' ≤ c ∧ c ≤ '9' then some (c.toNat - '0'.toNat) else none

def blockHeader (c : Cursor) : Chomping × Option Nat × Cursor :=
  match c.head?.bind chomping? with
  | some chomping =>
    match c.next.head?.bind increment? with
    | some n => (chomping, some n, c.next.next)
    | none => (chomping, none, c.next)
  | none =>
    match c.head?.bind increment? with
    | some n =>
      match c.next.head?.bind chomping? with
      | some chomping => (chomping, some n, c.next.next)
      | none => (.clip, some n, c.next)
    | none => (.clip, none, c)

/-- Leading line ends and spaces of a block, with the greatest column reached. -/
def blockMargin : (fuel : Nat) → Cursor → List Char × Nat × Cursor
  | 0, c => ([], 0, c)
  | fuel + 1, c =>
    if c.head? = some ' ' then
      let after := c.dropSpaces
      let (bs, widest, rest) := blockMargin fuel after
      (bs, max after.column widest, rest)
    else
      match c.break? with
      | some (b, c) =>
        let (bs, widest, c) := blockMargin fuel c
        (b :: bs, widest, c)
      | none => ([], 0, c)

/-- The lines of a block at a column, given the line ends before them: the text without the end of
the last line, that line end, and the line ends after it. -/
def blockLines (fold : Bool) (indent : Nat) :
    (fuel : Nat) → (before : List Char) → Cursor → List Char × List Char × List Char × Cursor
  | 0, before, c => ([], [], before, c)
  | fuel + 1, before, c =>
    if c.column ≠ indent || c.rest.isEmpty then ([], [], before, c)
    else
      let (line, c) := c.span fun ch => !isBreak ch
      let starts (cs : List Char) : Bool := !cs.head?.any fun ch => ch = ' ' || ch = '\t'
      let (ended, c) := match c.break? with
        | some (b, c) => ([b], c)
        | none => ([], c)
      let (after, c) := breaks (Cursor.dropSpacesTo indent) (c.rest.length + 1) c
      if c.column ≠ indent || c.rest.isEmpty then (before ++ line, ended, after, c)
      else
        let joint :=
          if fold && ended = ['\n'] && starts line && starts c.rest then
            (if after.isEmpty then [' '] else [])
          else ended
        let (text, last, tail, c) := blockLines fold indent fuel after c
        (before ++ line ++ joint ++ text, last, tail, c)

/-- A literal or folded block inside a collection of the given indentation. -/
def block (fold : Bool) (parent : Int) (c : Cursor) : Option (List Char × Cursor) := do
  let (chomping, increment, c) := blockHeader c.next
  guard (c.head?.all fun ch => ch = ' ' || isBreak ch)
  let c := c.dropSpaces.dropComment
  guard (c.head?.all isBreak)
  let c := match c.break? with
    | some (_, c) => c
    | none => c
  let least := (max (parent + 1) 1).toNat
  let (before, indent, c) := match increment with
    | some n =>
      let indent := least + n - 1
      let (bs, c) := breaks (Cursor.dropSpacesTo indent) (c.rest.length + 1) c
      (bs, indent, c)
    | none =>
      let (bs, widest, c) := blockMargin (c.rest.length + 1) c
      (bs, max least widest, c)
  let (text, last, tail, c) := blockLines fold indent (c.rest.length + 1) before c
  let text := if chomping = .strip then text else text ++ last
  some (if chomping = .keep then text ++ tail else text, c)

end AtomicCss.Yaml

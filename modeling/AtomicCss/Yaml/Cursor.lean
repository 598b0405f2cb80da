import AtomicCss.Text.Cut

/-!
# Places in a YAML stream

A cursor is what remains of the stream, with the line and column it has reached. Columns decide
the structure of block collections.
-/
namespace AtomicCss.Yaml

structure Cursor where
  rest : List Char
  index : Nat := 0
  line : Nat := 0
  column : Nat := 0

/-- Characters that end a line. -/
def isBreak (c : Char) : Bool := c = '\n' || c = '\x85' || c = '\u2028' || c = '\u2029'

/-- White space within or at the end of a line. -/
def isGap (c : Char) : Bool := c = ' ' || c = '\t' || isBreak c

/-- Whether a gap, or the end of the stream, comes at the front. -/
def opensGap (cs : List Char) : Bool := cs.head?.all isGap

/-- Whether a document marker stands at the front. -/
def isMarker (cs : List Char) : Bool :=
  (Text.after? "---".toList cs).any opensGap || (Text.after? "...".toList cs).any opensGap

/-- A line end as text: the common ones count as a line feed. -/
def breakText (c : Char) : Char := if c = '\x85' then '\n' else c

/-- The characters a stream may have. -/
def isAllowed (c : Char) : Bool :=
  let n := c.toNat
  n = 9 || n = 10 || n = 13 || (0x20 ≤ n && n ≤ 0x7E) || n = 0x85 || (0xA0 ≤ n && n ≤ 0xD7FF)
    || (0xE000 ≤ n && n ≤ 0xFFFD) || 0x10000 ≤ n

namespace Cursor

def head? (c : Cursor) : Option Char := c.rest.head?

/-- One character further. -/
def next (c : Cursor) : Cursor :=
  match c.rest with
  | [] => c
  | ch :: rest =>
    if isBreak ch then { rest, index := c.index + 1, line := c.line + 1, column := 0 }
    else
      { rest, index := c.index + 1, line := c.line
        column := if ch = '\ufeff' then c.column else c.column + 1 }

def skip : (count : Nat) → Cursor → Cursor
  | 0, c => c
  | n + 1, c => skip n c.next

/-- The longest run of characters that satisfy `p`, and the cursor after it. -/
def span (p : Char → Bool) (c : Cursor) : List Char × Cursor :=
  let run := c.rest.takeWhile p
  (run, c.skip run.length)

def dropSpaces (c : Cursor) : Cursor := (c.span (· = ' ')).2

def dropSpacesTo (column : Nat) (c : Cursor) : Cursor :=
  c.skip ((c.rest.takeWhile (· = ' ')).length.min (column - c.column))

def dropComment (c : Cursor) : Cursor :=
  if c.head? = some '#' then (c.span fun ch => !isBreak ch).2 else c

/-- The line end at the cursor, if there is one, and the cursor after it. -/
def break? (c : Cursor) : Option (Char × Cursor) :=
  match c.rest with
  | ch :: _ => if isBreak ch then some (breakText ch, c.next) else none
  | [] => none

end Cursor

/-- The line ends that follow, with the spaces before and between them dropped as `drop` says. -/
def breaks (drop : Cursor → Cursor) : (fuel : Nat) → Cursor → List Char × Cursor
  | 0, c => ([], c)
  | fuel + 1, c =>
    let c := drop c
    match c.break? with
    | some (b, c) =>
      let (bs, c) := breaks drop fuel c
      (b :: bs, c)
    | none => ([], c)

end AtomicCss.Yaml

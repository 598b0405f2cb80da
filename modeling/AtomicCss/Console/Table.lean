import AtomicCss.Console.Wrap

/-!
# Tables on the screen

A table is drawn as a grid of lines under its title. A column is as wide as its widest cell, and a
row is as high as the cell with the most rows in it.
-/
namespace AtomicCss.Console

structure Column where
  name : String
  right : Bool := false

structure Table where
  title : Option String := none
  columns : List Column
  /-- Whether the names of the columns are shown. -/
  hasHeader : Bool := true
  rows : List (List String)

namespace Table

/-- The names of the columns, if they are shown. -/
def header (t : Table) : List (List String) :=
  if t.hasHeader then [t.columns.map (·.name)] else []

def widths (t : Table) : List Nat :=
  (List.range t.columns.length).map fun i =>
    ((t.header ++ t.rows).map fun row => Wrap.width (row.getD i "").toList).foldl max 0

/-- A row of a text, without blanks at its end if it is not at the left, cut to a width. -/
def fitted (o : Overflow) (left : Bool) (width : Nat) (row : List Char) : List Char :=
  Wrap.cut o width (if left then row else Wrap.stripEnd row)

/-- The rows on the screen that a row of the table fills. A column without width shows nothing. -/
def screenRows (t : Table) (row : List String) : List (List (List Char)) :=
  let cells := (row.zip (t.columns.zip t.widths)).map fun (cell, column, width) =>
    if width = 0 then []
    else (Wrap.rows .ellipsis width cell.toList).map (fitted .ellipsis (!column.right) width)
  (List.range ((cells.map List.length).foldl max 1)).map fun i =>
    cells.map fun cell => cell.getD i []

/-- What stands in the cells of each row on the screen. -/
def cells (t : Table) : List (List String) :=
  (t.header ++ t.rows).flatMap fun row => (t.screenRows row).map fun row => row.map String.ofList

/-- A text with blanks to the width of a column. -/
def aligned (right : Bool) (width : Nat) (cs : List Char) : List Char :=
  let blanks := List.replicate (width - Width.ofText cs) ' '
  if right then blanks ++ cs else cs ++ blanks

/-- The characters of a line between rows: at its left, along a column, between two and at its
right. -/
structure Rule where
  left : Char
  along : Char
  between : Char
  right : Char

def Rule.line (r : Rule) (widths : List Nat) : List Char :=
  let parts := widths.map fun width => List.replicate (width + 2) r.along
  [r.left] ++ List.intercalate [r.between] parts ++ [r.right]

def heavyTop : Rule := ⟨'┏', '━', '┳', '┓'⟩

def lightTop : Rule := ⟨'┌', '─', '┬', '┐'⟩

def underHeader : Rule := ⟨'┡', '━', '╇', '┩'⟩

def bottom : Rule := ⟨'└', '─', '┴', '┘'⟩

def rowLines (t : Table) (upright : Char) (row : List String) : List (List Char) :=
  (t.screenRows row).map fun cells =>
    let padded := (cells.zip (t.columns.zip t.widths)).map fun (cell, column, width) =>
      [' '] ++ aligned column.right width cell ++ [' ']
    [upright] ++ List.intercalate [upright] padded ++ [upright]

def titleLines (t : Table) (width : Nat) : List (List Char) :=
  t.title.toList.flatMap fun title =>
    (Wrap.rows .fold width title.toList).map fun row =>
      let row := fitted .fold false width row
      let left := (width - Width.ofText row) / 2
      List.replicate left ' ' ++ row ++ List.replicate (width - Width.ofText row - left) ' '

def lines (t : Table) : List String :=
  let widths := t.widths
  let width := (widths.map (· + 3)).foldl (· + ·) 0 + 1
  let head :=
    if t.hasHeader then
      [heavyTop.line widths] ++ t.header.flatMap (t.rowLines '┃') ++ [underHeader.line widths]
    else [lightTop.line widths]
  let drawn := t.titleLines width ++ head ++ t.rows.flatMap (t.rowLines '│') ++ [bottom.line widths]
  drawn.map String.ofList

end Table
end AtomicCss.Console

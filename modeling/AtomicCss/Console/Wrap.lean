import AtomicCss.Text.Blank
import AtomicCss.Text.Cut
import AtomicCss.Text.Width

/-!
# Lines of a given width

Text on the screen is laid out in cells. Tabs reach to the next stop, a line that is too wide is
divided between its words, and a word that is too wide by itself is folded or cut. `rows` gives the
rows that a text is divided into, and `cut` makes them fit.
-/
namespace AtomicCss.Console

/-- What is done with a word that is wider than its line. -/
inductive Overflow
  /-- It goes on in the next row. -/
  | fold
  /-- It is cut, and an ellipsis shows that. -/
  | ellipsis
  deriving DecidableEq

namespace Wrap

def tabStop : Nat := 8

/-- The text with blanks for its tabs, from a cell of the line on. -/
def expandTabsFrom (cell : Nat) : List Char → List Char
  | [] => []
  | c :: cs =>
    if c = '\t' then
      let blanks := tabStop - cell % tabStop
      List.replicate blanks ' ' ++ expandTabsFrom (cell + blanks) cs
    else if c = '\n' then c :: expandTabsFrom 0 cs
    else c :: expandTabsFrom (cell + Width.ofChar c) cs

def expandTabs (cs : List Char) : List Char := expandTabsFrom 0 cs

/-- The words of a line, each with the blanks after it and the first one with those before it, if
there are words. -/
def wordsFrom (word : List Char) (begun ended : Bool) : List Char → List (List Char)
  | [] => if begun then [word.reverse] else []
  | c :: cs =>
    if Blank.isBlank c then wordsFrom (c :: word) begun begun cs
    else if ended then word.reverse :: wordsFrom [c] true false cs
    else wordsFrom (c :: word) true false cs

def words (cs : List Char) : List (List Char) := wordsFrom [] false false cs

def stripEnd (cs : List Char) : List Char := (cs.reverse.dropWhile Blank.isBlank).reverse

/-- The parts of a word that each fit a width, the first one being begun already. -/
def fold (width : Nat) (part : List Char) : List Char → List (List Char)
  | [] => [part.reverse]
  | c :: cs =>
    if Width.ofText part + Width.ofChar c > width then part.reverse :: fold width [c] cs
    else fold width (c :: part) cs

/-- The rows of a line given as words, the first row being begun already. -/
def divide (o : Overflow) (width : Nat) (row : List Char) : List (List Char) → List (List Char)
  | [] => [row]
  | word :: words =>
    let size := Width.ofText (stripEnd word)
    if Width.ofText row + size ≤ width then divide o width (row ++ word) words
    else
      let front := if row.isEmpty then [] else [row]
      if o = .fold && width < size then
        let parts := fold width [] word
        front ++ parts.dropLast ++ divide o width (parts.getLast?.getD []) words
      else front ++ divide o width word words

/-- A row without those blanks at its end that do not fit. -/
def dropBlanks (width : Nat) (row : List Char) : List Char :=
  let blanks := row.length - (stripEnd row).length
  row.take (row.length - min blanks (row.length - width))

/-- The front of a row that fills a width. A half of a wide character is left blank. -/
def front (width : Nat) : List Char → List Char
  | [] => List.replicate width ' '
  | c :: cs =>
    let w := Width.ofChar c
    if w ≤ width then c :: front (width - w) cs else List.replicate width ' '

def cut (o : Overflow) (width : Nat) (row : List Char) : List Char :=
  if Width.ofText row ≤ width then row
  else
    match o with
    | .fold => front width row
    | .ellipsis => front (width - 1) row ++ ['…']

/-- The rows a text is divided into. A row that holds a word wider than it is still too wide. -/
def rows (o : Overflow) (width : Nat) (cs : List Char) : List (List Char) :=
  (Text.splitOn '\n' cs).flatMap fun line =>
    let line := expandTabs line
    let rows := match words line with
      | [] => [line]
      | words => divide o width [] words
    rows.map (dropBlanks width)

def isLineEnd (c : Char) : Bool :=
  let n := c.toNat
  (10 ≤ n && n ≤ 13) || (28 ≤ n && n ≤ 30) || n = 0x85 || n = 0x2028 || n = 0x2029

/-- The width of the widest line of a text, in which tabs take no cell. -/
def width (cs : List Char) : Nat :=
  let lines := Text.splitOn '\n' (cs.map fun c => if isLineEnd c then '\n' else c)
  (lines.map Width.ofText).foldl max 0

end Wrap
end AtomicCss.Console

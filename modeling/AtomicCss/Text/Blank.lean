/-!
# White space

The characters taken as white space around a numeral or a color, those of every script and the
four information separators included.
-/
namespace AtomicCss.Blank

def isBlank (c : Char) : Bool :=
  let n := c.toNat
  (9 ≤ n && n ≤ 13) || (28 ≤ n && n ≤ 32) || n == 0x85 || n == 0xA0 || n == 0x1680 ||
    (0x2000 ≤ n && n ≤ 0x200A) || n == 0x2028 || n == 0x2029 || n == 0x202F || n == 0x205F ||
    n == 0x3000

/-- White space as a script property, to which the information separators do not belong. -/
def isSpace (c : Char) : Bool := isBlank c && !(28 ≤ c.toNat && c.toNat ≤ 31)

/-- Drops what satisfies `p` from both ends. -/
def trim (p : Char → Bool) (cs : List Char) : List Char :=
  ((cs.dropWhile p).reverse.dropWhile p).reverse

/-- The text without white space at its ends. -/
def strip (cs : List Char) : List Char := trim isBlank cs

/-- The runs of other characters between white space. -/
def wordsFrom (word : List Char) : List Char → List (List Char)
  | [] => [word]
  | c :: cs => if isBlank c then word :: wordsFrom [] cs else wordsFrom (word ++ [c]) cs

def words (cs : List Char) : List String :=
  ((wordsFrom [] cs).filter fun w => !w.isEmpty).map String.ofList

end AtomicCss.Blank

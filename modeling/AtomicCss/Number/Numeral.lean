import AtomicCss.Number.Basic
import AtomicCss.Text.Digit
import AtomicCss.Text.Blank

/-!
# Reading numerals

A numeral may have white space around it, a sign, the digits of any script and single underscores
between digits. A float may also have a fraction, an exponent, or be the word for an infinity or
for no number. The value read is the nearest float, found by one rounding.
-/
namespace AtomicCss.Numeral

/-- The number written by a run of digit values, most significant first. -/
def ofDigits (ds : List Nat) : Nat := ds.foldl (fun n d => 10 * n + d) 0

/-- The digit values of the longest run of digits, and what follows it. -/
def digitRun : List Char → List Nat × List Char
  | [] => ([], [])
  | c :: cs =>
    match Digit.value? c with
    | none => ([], c :: cs)
    | some d =>
      let (ds, rest) := digitRun cs
      (d :: ds, rest)

/-- Removes underscores, each of which must stand between two digits. -/
def ungroup (afterDigit : Bool) : List Char → Option (List Char)
  | [] => some []
  | c :: cs =>
    if c = '_' then
      if afterDigit && cs.head?.any Digit.isDigit then ungroup false cs else none
    else (ungroup (Digit.isDigit c) cs).map (c :: ·)

/-- Splits off a sign; `true` stands for minus. -/
def sign : List Char → Bool × List Char
  | '-' :: cs => (true, cs)
  | '+' :: cs => (false, cs)
  | cs => (false, cs)

/-- The nearest float to `± coefficient * 10 ^ e`. Exponents far beyond the floats are settled
without computing the power. -/
def nearest (negative : Bool) (coefficient : Nat) (e : Int) : Float :=
  let infinite : Float := 1.0 / 0.0
  if coefficient = 0 then (if negative then -0.0 else 0.0)
  else if 400 < e then (if negative then -infinite else infinite)
  else if e + coefficient.log2 < -1200 then (if negative then -0.0 else 0.0)
  else
    Ratio.nearestSigned negative (.scaled coefficient 10 e)

/-- The exponent part, absent if there is none; fails on a mark without digits. -/
def exponent? : List Char → Option (Int × List Char)
  | [] => some (0, [])
  | c :: cs =>
    if c = 'e' ∨ c = 'E' then
      let (negative, cs) := sign cs
      match digitRun cs with
      | ([], _) => none
      | (ds, rest) =>
        let n : Int := ofDigits ds
        some (if negative then -n else n, rest)
    else some (0, c :: cs)

/-- Reads unsigned digits with an optional fraction and exponent, to the end of the text. -/
def unsigned? (negative : Bool) (cs : List Char) : Option Float := do
  let (whole, rest) := digitRun cs
  let (fraction, rest) := match rest with
    | '.' :: rest => digitRun rest
    | rest => ([], rest)
  guard (!(whole.isEmpty && fraction.isEmpty))
  let (e, rest) ← exponent? rest
  guard rest.isEmpty
  some (nearest negative (ofDigits (whole ++ fraction)) (e - fraction.length))

def float? (text : List Char) : Option Float := do
  let cs ← ungroup false (Blank.trim Blank.isSpace text)
  let (negative, cs) := sign cs
  let word := String.ofList (cs.map Char.toLower)
  if word = "inf" ∨ word = "infinity" then
    some (if negative then -(1.0 / 0.0) else 1.0 / 0.0)
  else if word = "nan" then some (0.0 / 0.0)
  else unsigned? negative cs

/-- The values of digits to a base: digits of any script, and then the letters. -/
def baseDigit? (base : Nat) (c : Char) : Option Nat :=
  let value := (Digit.value? c).orElse fun _ =>
    let lower := c.toLower
    if 'a' ≤ lower ∧ lower ≤ 'z' then some (lower.toNat - 'a'.toNat + 10) else none
  value.filter (· < base)

/-- Drops the mark of a base, a zero with a letter. -/
def dropMark (base : Nat) : List Char → List Char
  | '0' :: c :: cs =>
    if (base, c.toLower) ∈ [(2, 'b'), (8, 'o'), (16, 'x')] then cs else '0' :: c :: cs
  | cs => cs

/-- Reads an integer to a base whose digits are not grouped, and which may be marked. -/
def toBase? (base : Nat) (text : List Char) : Option Int := do
  let (negative, cs) := sign (Blank.trim Blank.isSpace text)
  let cs := dropMark base cs
  guard !cs.isEmpty
  let n ← cs.foldlM (fun n c => (baseDigit? base c).map (base * n + ·)) 0
  some (if negative then -(n : Int) else n)

def int? (text : List Char) : Option Int := do
  let cs ← ungroup false (Blank.trim Blank.isSpace text)
  let (negative, cs) := sign cs
  match digitRun cs with
  | ([], _) => none
  | (ds, rest) =>
    guard (rest.isEmpty && ds.length ≤ digitLimit)
    some (if negative then -(ofDigits ds : Int) else ofDigits ds)

end AtomicCss.Numeral

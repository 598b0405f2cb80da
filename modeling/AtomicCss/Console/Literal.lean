import AtomicCss.Number.Numeral
import AtomicCss.Text.Lines
import AtomicCss.Text.Word

/-!
# Literals

The parameters of an action in a message are a literal: a number, a text, bytes, one of the words
for a constant, or a tuple, set or map of literals. A literal is read as tokens, and from them it is
known what kind of value it writes. `Literal.isLiteral` says whether a text is one.
-/
namespace AtomicCss.Console

/-- The words of a literal, without blanks and comments. -/
inductive LiteralToken
  | number (imaginary : Bool)
  | text (bytes : Bool)
  /-- A word for a value, or an ellipsis. -/
  | constant
  /-- The word before the empty set. -/
  | setName
  | mark (c : Char)
  deriving DecidableEq

namespace LiteralToken

/-- What follows further digits, each after at most one underscore. -/
def moreDigits (p : Char → Bool) : List Char → List Char
  | [] => []
  | [c] => if p c then [] else [c]
  | c :: d :: cs =>
    if p c then moreDigits p (d :: cs)
    else if c = '_' ∧ p d then moreDigits p cs
    else c :: d :: cs

/-- What follows a run of digits, if there is one. -/
def afterDigits? (p : Char → Bool) : List Char → Option (List Char)
  | [] => none
  | c :: cs => if p c then some (moreDigits p cs) else none

def isHex (c : Char) : Bool := (Digit.hexValue? c).isSome

def isOctal (c : Char) : Bool := '0' ≤ c && c ≤ '7'

def isBinary (c : Char) : Bool := c = '0' || c = '1'

/-- What follows an exponent, or the same text if none stands there. -/
def afterExponent (cs : List Char) : List Char :=
  match cs with
  | c :: rest =>
    if c.toLower ≠ 'e' then cs
    else
      let digits := match rest with
        | '+' :: digits | '-' :: digits => digits
        | digits => digits
      (afterDigits? Char.isDigit digits).getD cs
  | [] => cs

/-- What follows a decimal number, and whether the number is imaginary. A whole number begins with
a zero only if all its digits are zeros. -/
def decimal? (cs : List Char) : Option (Bool × List Char) := do
  let afterWhole := (afterDigits? Char.isDigit cs).getD cs
  let afterPoint := match afterWhole with
    | '.' :: rest => (afterDigits? Char.isDigit rest).getD rest
    | rest => rest
  guard (!(afterWhole = cs && (afterDigits? Char.isDigit (cs.drop 1)).isNone))
  let rest := afterExponent afterPoint
  match rest with
  | c :: more => if c.toLower = 'j' then return (true, more)
  | [] => pure ()
  let whole := cs.take (cs.length - afterWhole.length)
  let isWhole := rest.length = afterWhole.length
  guard (!isWhole ||
    (if cs.head? = some '0' then whole.all fun c => c = '0' || c = '_'
      else (whole.filter Char.isDigit).length ≤ Numeral.digitLimit))
  some (false, rest)

/-- What follows a number, and whether the number is imaginary. -/
def number? (cs : List Char) : Option (Bool × List Char) :=
  let based (p : Char → Bool) (rest : List Char) : Option (Bool × List Char) :=
    let rest := match rest with
      | '_' :: rest => rest
      | rest => rest
    (afterDigits? p rest).map (false, ·)
  match cs with
  | '0' :: c :: rest =>
    match c.toLower with
    | 'x' => based isHex rest
    | 'o' => based isOctal rest
    | 'b' => based isBinary rest
    | _ => decimal? cs
  | _ => decimal? cs

/-- How a text is written. -/
structure Quoting where
  quote : Char
  /-- Whether three quotes stand at each end, between which lines may end. -/
  long : Bool
  bytes : Bool
  /-- Whether backslashes stand for themselves. -/
  raw : Bool

/-- The value of hexadecimal digits, if there are enough of them. -/
def hexValue? (count : Nat) (cs : List Char) : Option Nat :=
  let digits := cs.take count
  if digits.length = count then Digit.hexNumber? digits else none

/-- Whether the name of a character stands between braces. -/
def hasCharacterName : List Char → Bool
  | '\x7b' :: cs =>
    let name := cs.takeWhile (· ≠ '\x7d')
    !name.isEmpty && name.length < cs.length &&
      name.all fun c => c.isAlphanum || c = ' ' || c = '-'
  | _ => false

/-- Whether what follows a backslash can be read. Backslashes before other characters stand for
themselves. -/
def isEscape (q : Quoting) (c : Char) (cs : List Char) : Bool :=
  q.raw ||
    match c with
    | 'x' => (hexValue? 2 cs).isSome
    | 'u' => q.bytes || (hexValue? 4 cs).isSome
    | 'U' => q.bytes || (hexValue? 8 cs).any (· ≤ 0x10ffff)
    | 'N' => q.bytes || hasCharacterName cs
    | _ => true

/-- What follows a text after its opening quotes. -/
def afterText? (q : Quoting) : List Char → Option (List Char)
  | [] => none
  | c :: cs =>
    if q.bytes && c.toNat ≥ 128 then none
    else if c = '\\' then
      match cs with
      | [] => none
      | d :: cs =>
        if isEscape q d cs && !(q.bytes && d.toNat ≥ 128) then afterText? q cs else none
    else if c = q.quote then
      if !q.long then some cs
      else
        match cs with
        | d :: e :: rest => if d = c ∧ e = c then some rest else afterText? q (d :: e :: rest)
        | _ => none
    else if c = '\n' && !q.long then none
    else afterText? q cs

/-- The letters before a text, and whether they make it bytes and keep its backslashes. -/
def textLetters : List (String × Bool × Bool) :=
  [("", false, false), ("u", false, false), ("r", false, true), ("b", true, false),
    ("br", true, true), ("rb", true, true)]

/-- What follows a text that begins with a quote, after the letters before it. -/
def text? (letters cs : List Char) : Option (Bool × List Char) := do
  let (bytes, raw) ← textLetters.lookup (String.ofList (letters.map Char.toLower))
  match cs with
  | c :: d :: e :: rest =>
    if d = c ∧ e = c then (afterText? ⟨c, true, bytes, raw⟩ rest).map (bytes, ·)
    else (afterText? ⟨c, false, bytes, raw⟩ (d :: e :: rest)).map (bytes, ·)
  | c :: rest => (afterText? ⟨c, false, bytes, raw⟩ rest).map (bytes, ·)
  | [] => none

/-- The token that a text begins with, and what follows it. -/
def next? (cs : List Char) : Option (LiteralToken × List Char) := do
  let word := cs.takeWhile Word.isWord
  let rest := cs.drop word.length
  match cs with
  | [] => none
  | c :: more =>
    if c.isDigit || (c = '.' && (more.head?.map Char.isDigit).getD false) then
      let (imaginary, rest) ← number? cs
      return (.number imaginary, rest)
    else if (rest.head?.map fun c => c = '"' || c = '\'').getD false then
      let (bytes, rest) ← text? word rest
      return (.text bytes, rest)
    else if !word.isEmpty then
      if ["True", "False", "None"].contains (String.ofList word) then return (.constant, rest)
      else if String.ofList word = "set" then return (.setName, rest)
      else none
    else
      match cs with
      | '.' :: '.' :: '.' :: rest => return (.constant, rest)
      | _ => if "(),:+-\x7b\x7d".toList.contains c then return (.mark c, more) else none

/-- Literals may stand in this many brackets. -/
def depthLimit : Nat := 200

/-- How deep in brackets a text is after a token. -/
def depthAfter? (depth : Nat) : LiteralToken → Option Nat
  | .mark '(' | .mark '\x7b' => if depth < depthLimit then some (depth + 1) else none
  | .mark ')' | .mark '\x7d' => if depth = 0 then none else some (depth - 1)
  | _ => some depth

def isBlank (c : Char) : Bool := c = ' ' || c = '\t' || c = '\x0c'

/-- The tokens of a text of which the first characters belong to the token before. Lines end within
brackets only, or after the last token. -/
def tokensFrom (skipped depth : Nat) (ended : Bool) : List Char → Option (List LiteralToken)
  | [] => some []
  | c :: cs =>
    match skipped with
    | n + 1 => tokensFrom n depth ended cs
    | 0 =>
      if isBlank c then tokensFrom 0 depth ended cs
      else if c = '#' then tokensFrom (cs.takeWhile (· ≠ '\n')).length depth ended cs
      else if c = '\n' then tokensFrom 0 depth (ended || depth = 0) cs
      else if ended then none
      else if c = '\\' then
        match cs with
        | '\n' :: _ :: _ => tokensFrom 1 depth ended cs
        | _ => none
      else
        match next? (c :: cs) with
        | none => none
        | some (token, rest) =>
          match depthAfter? depth token with
          | none => none
          | some depth =>
            (tokensFrom (cs.length - rest.length) depth ended cs).map (token :: ·)

/-- Whether what follows blanks at the margin of a line is at the margin, as it is after a form
feed. -/
def isMargin (blanks : List Char) : Bool := blanks.getLast?.all (· = '\x0c')

/-- The text after the lines before the literal, which hold comments only. The literal begins its
line. -/
def afterComments? : (fuel : Nat) → List Char → Option (List Char)
  | 0, _ => none
  | fuel + 1, cs =>
    match cs.dropWhile isBlank with
    | '#' :: more => afterComments? fuel ((more.dropWhile (· ≠ '\n')).drop 1)
    | '\n' :: more => afterComments? fuel more
    | body => if isMargin (cs.takeWhile isBlank) then some body else none

def tokens? (text : List Char) : Option (List LiteralToken) := do
  guard (!text.contains '\x00')
  let unified := Text.unifyBreaks (text.dropWhile fun c => c = ' ' || c = '\t')
  tokensFrom 0 0 false (← afterComments? (unified.length + 1) unified)

end LiteralToken

/-- What is known of the value of a literal. -/
inductive Literal
  | real (signed : Bool)
  | imaginary (signed : Bool)
  /-- Another value, which may be such that no set holds it. -/
  | other (hashable : Bool)
  deriving DecidableEq

namespace Literal
open LiteralToken

def isHashable : Literal → Bool
  | .other hashable => hashable
  | _ => true

/-- The number with a sign, which only a number without one can take. -/
def signed? : Literal → Option Literal
  | .real false => some (.real true)
  | .imaginary false => some (.imaginary true)
  | _ => none

/-- The sum or difference of a real and an imaginary number. -/
def sum? : Literal → Literal → Option Literal
  | .real _, .imaginary false => some (.other true)
  | _, _ => none

/-- The value of literals between parentheses or alone: one without a comma is itself, others make
a tuple. -/
def tuple (items : List Literal) (comma : Bool) : Literal :=
  match items, comma with
  | [item], false => item
  | items, _ => .other (items.all isHashable)

/-- What follows further texts of the same kind. -/
def afterTexts? (bytes : Bool) : List LiteralToken → Option (List LiteralToken)
  | .text b :: rest => if b = bytes then afterTexts? bytes rest else none
  | rest => some rest

mutual

/-- A literal without a sign, and what follows it. -/
def atom? : (fuel : Nat) → List LiteralToken → Option (Literal × List LiteralToken)
  | 0, _ => none
  | fuel + 1, tokens =>
    match tokens with
    | .number isImaginary :: rest =>
      some (if isImaginary then .imaginary false else .real false, rest)
    | .text bytes :: rest => (afterTexts? bytes rest).map (.other true, ·)
    | .constant :: rest => some (.other true, rest)
    | .setName :: .mark '(' :: .mark ')' :: rest => some (.other false, rest)
    | .mark '(' :: rest => do
      let (items, comma, rest) ← items? fuel rest
      match rest with
      | .mark ')' :: rest => some (tuple items comma, rest)
      | _ => none
    | .mark '\x7b' :: .mark '\x7d' :: rest => some (.other false, rest)
    | .mark '\x7b' :: rest => do
      let (first, rest) ← literal? fuel rest
      guard first.isHashable
      let rest ← match rest with
        | .mark ',' :: rest => do
          let (items, _, rest) ← items? fuel rest
          guard (items.all isHashable)
          some rest
        | .mark ':' :: rest => entries? fuel rest
        | rest => some rest
      match rest with
      | .mark '\x7d' :: rest => some (.other false, rest)
      | _ => none
    | _ => none

/-- A literal that may have a sign, and what follows it. -/
def term? : (fuel : Nat) → List LiteralToken → Option (Literal × List LiteralToken)
  | 0, _ => none
  | fuel + 1, tokens =>
    match tokens with
    | .mark '+' :: rest | .mark '-' :: rest => do
      let (value, rest) ← atom? fuel rest
      some (← value.signed?, rest)
    | _ => atom? fuel tokens

/-- A literal, which may be a sum, and what follows it. -/
def literal? : (fuel : Nat) → List LiteralToken → Option (Literal × List LiteralToken)
  | 0, _ => none
  | fuel + 1, tokens => do
    let (value, rest) ← term? fuel tokens
    match rest with
    | .mark '+' :: rest | .mark '-' :: rest =>
      let (part, rest) ← atom? fuel rest
      some (← sum? value part, rest)
    | _ => some (value, rest)

/-- Literals between commas, whether there is a comma, and what follows them. -/
def items? : (fuel : Nat) → List LiteralToken → Option (List Literal × Bool × List LiteralToken)
  | 0, _ => none
  | fuel + 1, tokens =>
    match tokens with
    | [] | .mark ')' :: _ | .mark '\x7d' :: _ => some ([], false, tokens)
    | _ => do
      let (item, rest) ← literal? fuel tokens
      match rest with
      | .mark ',' :: rest =>
        let (items, _, rest) ← items? fuel rest
        some (item :: items, true, rest)
      | _ => some ([item], false, rest)

/-- What follows the entries of a map, of which the first has its key read already. -/
def entries? : (fuel : Nat) → List LiteralToken → Option (List LiteralToken)
  | 0, _ => none
  | fuel + 1, tokens => do
    let (_, rest) ← literal? fuel tokens
    match rest with
    | .mark ',' :: .mark '\x7d' :: rest => some (.mark '\x7d' :: rest)
    | .mark ',' :: rest =>
      let (key, rest) ← literal? fuel rest
      guard key.isHashable
      match rest with
      | .mark ':' :: rest => entries? fuel rest
      | _ => none
    | _ => some rest

end

def isLiteral (text : List Char) : Bool :=
  let read := do
    let tokens ← tokens? text
    let (items, _, rest) ← items? (4 * tokens.length + 4) tokens
    guard (!items.isEmpty && rest.isEmpty)
  read.isSome

end Literal
end AtomicCss.Console

import AtomicCss.Value.Basic
import AtomicCss.Number.Numeral
import AtomicCss.Text.Cut

/-!
# Reading JSON

The reader takes the JSON grammar and, as values, the words for the infinities and for no number.
A member given twice keeps its first place and its last value. A half of a surrogate pair that
stands alone is kept.
-/
namespace AtomicCss.Json

inductive ReadError
  | malformed
  /-- An integer is longer than integers may be. -/
  | tooManyDigits
  deriving DecidableEq

def isBlank (c : Char) : Bool := c = ' ' || c = '\t' || c = '\n' || c = '\r'

def skip (cs : List Char) : List Char := cs.dropWhile isBlank

/-- The four digits of a 16-bit unit. -/
def unit? : List Char → Option (Nat × List Char)
  | a :: b :: c :: d :: rest => (Digit.hexNumber? [a, b, c, d]).map (·, rest)
  | _ => none

/-- The second half of a surrogate pair, if an escape for one follows. -/
def lowUnit? : List Char → Option (Nat × List Char)
  | '\\' :: 'u' :: rest =>
    (unit? rest).bind fun (n, rest) => if 0xDC00 ≤ n ∧ n < 0xE000 then some (n, rest) else none
  | _ => none

/-- The character of an escape, given what follows the backslash. -/
def escaped? : List Char → Option (Char × List Char)
  | '"' :: rest => some ('"', rest)
  | '\\' :: rest => some ('\\', rest)
  | '/' :: rest => some ('/', rest)
  | 'b' :: rest => some ('\x08', rest)
  | 'f' :: rest => some ('\x0c', rest)
  | 'n' :: rest => some ('\n', rest)
  | 'r' :: rest => some ('\r', rest)
  | 't' :: rest => some ('\t', rest)
  | 'u' :: rest =>
    match unit? rest with
    | none => none
    | some (n, rest) =>
      if 0xD800 ≤ n ∧ n < 0xDC00 then
        match lowUnit? rest with
        | some (m, rest) => some (Char.ofNat (0x10000 + (n - 0xD800) * 0x400 + (m - 0xDC00)), rest)
        | none => some (Surrogate.kept n, rest)
      else some (Surrogate.charOf n, rest)
  | _ => none

/-- The characters up to the closing quote, and what follows it. -/
def string? : (fuel : Nat) → List Char → Option (List Char × List Char)
  | 0, _ => none
  | _, [] => none
  | fuel + 1, c :: cs =>
    if c = '"' then some ([], cs)
    else if c = '\\' then
      match escaped? cs with
      | none => none
      | some (d, rest) => (string? fuel rest).map fun (s, rest) => (d :: s, rest)
    else if c.toNat < 0x20 then none
    else (string? fuel cs).map fun (s, rest) => (c :: s, rest)

def digitValues (cs : List Char) : List Nat := cs.map fun c => c.toNat - 48

/-- The digits after a mark such as the point, none if the mark does not open any. -/
def fractionDigits : List Char → List Char × List Char
  | '.' :: cs => match cs.span Char.isDigit with
    | ([], _) => ([], '.' :: cs)
    | split => split
  | cs => ([], cs)

/-- The exponent, if a whole one follows. -/
def exponent? : List Char → Option (Int × List Char)
  | c :: cs =>
    if c = 'e' ∨ c = 'E' then
      let (negative, cs) := Numeral.sign cs
      match cs.span Char.isDigit with
      | ([], _) => none
      | (ds, rest) =>
        let n : Int := Numeral.ofDigits (digitValues ds)
        some (if negative then -n else n, rest)
    else none
  | [] => none

/-- A number: no leading zeros, and digits on both sides of a point. -/
def number (cs : List Char) : Except ReadError (Number × List Char) :=
  let (negative, cs) := match cs with
    | '-' :: cs => (true, cs)
    | cs => (false, cs)
  let (whole, rest) := match cs with
    | '0' :: rest => (['0'], rest)
    | cs => cs.span Char.isDigit
  if whole.isEmpty then .error .malformed
  else
    let (fraction, rest) := fractionDigits rest
    match fraction, exponent? rest with
    | [], none =>
      if Numeral.digitLimit < whole.length then .error .tooManyDigits
      else
        let n : Int := Numeral.ofDigits (digitValues whole)
        .ok (.int (if negative then -n else n), rest)
    | fraction, exponent =>
      let (e, rest) := exponent.getD (0, rest)
      let n := Numeral.ofDigits (digitValues (whole ++ fraction))
      .ok (.float (Numeral.nearest negative n (e - fraction.length)), rest)

def words : List (String × Value) :=
  [("null", .null), ("true", .bool true), ("false", .bool false),
    ("NaN", .number (.float (0.0 / 0.0))), ("Infinity", .number (.float (1.0 / 0.0))),
    ("-Infinity", .number (.float (-(1.0 / 0.0))))]

/-- A value that is a word, and what follows it. -/
def word? (cs : List Char) : Option (Value × List Char) :=
  words.findSome? fun (w, v) => (Text.after? w.toList cs).map (v, ·)

mutual

/-- A value, with no blanks before it. -/
def value : (fuel : Nat) → List Char → Except ReadError (Value × List Char)
  | 0, _ => .error .malformed
  | _, [] => .error .malformed
  | fuel + 1, c :: cs =>
    if c = '"' then
      match string? (cs.length + 1) cs with
      | some (s, rest) => .ok (.text (String.ofList s), rest)
      | none => .error .malformed
    else if c = '[' then
      match skip cs with
      | ']' :: rest => .ok (.list [], rest)
      | cs => (items fuel cs).map fun (vs, rest) => (.list vs, rest)
    else if c = '\x7b' then
      match skip cs with
      | '\x7d' :: rest => .ok (.map [], rest)
      | cs => (members fuel cs).map fun (ms, rest) => (.map (Dict.ofList ms), rest)
    else
      match word? (c :: cs) with
      | some found => .ok found
      | none => (number (c :: cs)).map fun (n, rest) => (.number n, rest)

def items : (fuel : Nat) → List Char → Except ReadError (List Value × List Char)
  | 0, _ => .error .malformed
  | fuel + 1, cs => do
    let (v, rest) ← value fuel cs
    match skip rest with
    | ',' :: rest =>
      let (vs, rest) ← items fuel (skip rest)
      pure (v :: vs, rest)
    | ']' :: rest => pure ([v], rest)
    | _ => throw .malformed

def members : (fuel : Nat) → List Char → Except ReadError (List (String × Value) × List Char)
  | 0, _ => .error .malformed
  | fuel + 1, cs => do
    let (k, rest) ← match cs with
      | '"' :: cs =>
        match string? (cs.length + 1) cs with
        | some found => pure found
        | none => throw .malformed
      | _ => throw .malformed
    let rest ← match skip rest with
      | ':' :: rest => pure (skip rest)
      | _ => throw .malformed
    let (v, rest) ← value fuel rest
    match skip rest with
    | ',' :: rest =>
      let (ms, rest) ← members fuel (skip rest)
      pure ((String.ofList k, v) :: ms, rest)
    | '\x7d' :: rest => pure ([(String.ofList k, v)], rest)
    | _ => throw .malformed

end

def readChars (cs : List Char) : Except ReadError Value := do
  let (v, rest) ← value (2 * cs.length + 2) (skip cs)
  if (skip rest).isEmpty then pure v else throw .malformed

def read (s : String) : Except ReadError Value := readChars s.toList

end AtomicCss.Json

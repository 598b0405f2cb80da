import AtomicCss.Json.Reader
import AtomicCss.Number.Numeral
import AtomicCss.Text.Cut
import AtomicCss.Yaml.Binary
import AtomicCss.Yaml.Presentation

/-!
# What plain scalars stand for

The form of a plain scalar decides what it is: a number in one of several notations, a flag, a
date, nothing, or else text. A text that has one of the other forms must be quoted to stay text. A
tag asks for a form whatever the text looks like, and the reading of a form is therefore liberal.
-/
namespace AtomicCss.Yaml

inductive Form
  | bool | float | int | merge | null | timestamp | value | text
  /-- Bytes, which only a tag asks for. -/
  | binary
  deriving DecidableEq

namespace Form

def isDigitOrBar (c : Char) : Bool := c.isDigit || c = '_'

def trueWords : List String := ["yes", "Yes", "YES", "true", "True", "TRUE", "on", "On", "ON"]

def falseWords : List String := ["no", "No", "NO", "false", "False", "FALSE", "off", "Off", "OFF"]

def nullWords : List String := ["~", "null", "Null", "NULL", ""]

/-- A text without a sign at its beginning, if it has one. -/
def unsigned (cs : List Char) : List Char := (Numeral.sign cs).2

/-- Digits and bars, a digit first. -/
def isWhole : List Char → Bool
  | c :: cs => c.isDigit && cs.all isDigitOrBar
  | [] => false

/-- The minutes or seconds of a number to base sixty. -/
def isSixtieth : List Char → Bool
  | [d] => d.isDigit
  | [t, d] => '0' ≤ t && t ≤ '5' && d.isDigit
  | _ => false

/-- A number to base sixty, with colons between its places. -/
def isSexagesimal (cs : List Char) : Bool :=
  match Text.splitOn ':' cs with
  | first :: place :: places => isWhole first && (place :: places).all isSixtieth
  | _ => false

def nonempty (p : Char → Bool) (cs : List Char) : Bool := !cs.isEmpty && cs.all p

def isInt (cs : List Char) : Bool :=
  match unsigned cs with
  | ['0'] => true
  | '0' :: 'b' :: rest => nonempty (fun c => c = '0' || c = '1' || c = '_') rest
  | '0' :: 'x' :: rest => nonempty (fun c => (Digit.hexValue? c).isSome || c = '_') rest
  | '0' :: rest => nonempty (fun c => ('0' ≤ c && c ≤ '7') || c = '_') rest
  | rest => isWhole rest || isSexagesimal rest

/-- Nothing, or an exponent with its sign. -/
def isExponent : List Char → Bool
  | [] => true
  | e :: sign :: digits =>
    (e = 'e' || e = 'E') && (sign = '+' || sign = '-') && nonempty Char.isDigit digits
  | _ => false

/-- Digits after a point, with an exponent that may be absent. -/
def isFraction (cs : List Char) : Bool := isExponent (cs.dropWhile isDigitOrBar)

def isFloat (cs : List Char) : Bool :=
  let unsigned := unsigned cs
  let special := String.ofList unsigned
  if special = ".inf" || special = ".Inf" || special = ".INF" then true
  else
    match cs with
    | '.' :: rest =>
      rest = "nan".toList || rest = "NaN".toList || rest = "NAN".toList
        || (rest.head?.any Char.isDigit && isFraction rest)
    | _ =>
      match Text.cut ['.'] unsigned with
      | none => false
      | some (whole, rest) =>
        (isWhole whole && isFraction rest) || (isSexagesimal whole && rest.all isDigitOrBar)

/-- A number of at least `least` and at most `most` digits, as many as there are. -/
def digits? (least most : Nat) (cs : List Char) : Option (Nat × List Char) :=
  let run := (cs.takeWhile Char.isDigit).take most
  if run.length < least then none
  else some (Numeral.ofDigits (Json.digitValues run), cs.drop run.length)

def mark? (c : Char) : List Char → Option (List Char)
  | d :: rest => if d = c then some rest else none
  | [] => none

/-- The zone at the end of a point in time: how many minutes its clock is ahead, if it is given. -/
def zone? : List Char → Option (Option Int)
  | [] => some none
  | ['Z'] => some (some 0)
  | c :: cs => do
    guard (c = '+' || c = '-')
    let (hours, rest) ← digits? 1 2 cs
    let (minutes, rest) ← if rest.isEmpty then some (0, []) else digits? 2 2 (← mark? ':' rest)
    guard rest.isEmpty
    let ahead : Int := 60 * hours + minutes
    some (some (if c = '-' then -ahead else ahead))

/-- The first six places of a fraction. -/
def micros (fraction : List Char) : Nat :=
  let places := fraction.take 6
  Numeral.ofDigits (Json.digitValues (places ++ List.replicate (6 - places.length) '0'))

/-- The time of day after a date. -/
def clock? (date : Date) (cs : List Char) : Option Moment := do
  let gap := cs.takeWhile fun c => c = ' ' || c = '\t'
  let rest ← match cs with
    | 'T' :: rest => some rest
    | 't' :: rest => some rest
    | _ => if gap.isEmpty then none else some (cs.drop gap.length)
  let (hour, rest) ← digits? 1 2 rest
  let (minute, rest) ← digits? 2 2 (← mark? ':' rest)
  let (second, rest) ← digits? 2 2 (← mark? ':' rest)
  let (fraction, rest) := match rest with
    | '.' :: rest => rest.span Char.isDigit
    | _ => ([], rest)
  let zone := rest.dropWhile fun c => c = ' ' || c = '\t'
  guard (!zone.isEmpty || rest.isEmpty)
  some { date, hour, minute, second, micro := micros fraction, offset := ← zone? zone }

/-- A date that may have a time of day, as far as its form goes. -/
def timestamp? (cs : List Char) : Option (Date × Option Moment) := do
  let (year, rest) ← digits? 4 4 cs
  let (month, rest) ← digits? 1 2 (← mark? '-' rest)
  let (day, rest) ← digits? 1 2 (← mark? '-' rest)
  let date : Date := ⟨year, month, day⟩
  if rest.isEmpty then some (date, none) else some (date, some (← clock? date rest))

/-- The date or point in time, if the calendar has it. Offsets are less than a day. -/
def calendarScalar? : Date × Option Moment → Option Scalar
  | (date, none) => if Calendar.hasDate date then some (.date date) else none
  | (date, some m) =>
    if Calendar.hasDate date && Calendar.hasTime m && (m.offset.getD 0).natAbs < 24 * 60 then
      some (.moment m)
    else none

/-- Whether a plain scalar is a date, which without a time of day must have all its digits. -/
def isTimestamp (cs : List Char) : Bool :=
  match timestamp? cs with
  | some (_, none) => cs.length = 10
  | some _ => true
  | none => false

/-- The form of a plain scalar. -/
def ofText (s : String) : Form :=
  let cs := s.toList
  if trueWords.contains s || falseWords.contains s then .bool
  else if isFloat cs then .float
  else if isInt cs then .int
  else if s = "<<" then .merge
  else if nullWords.contains s then .null
  else if isTimestamp cs then .timestamp
  else if s = "=" then .value
  else .text

/-- A text without the line feed that may end it. -/
def unbroken (cs : List Char) : List Char := if cs.getLast? = some '\n' then cs.dropLast else cs

/-- The form of a scalar that asks for the form its text has, even if it is quoted. -/
def ofQuoted (s : String) : Form :=
  if s = "\n" then .text else ofText (String.ofList (unbroken s.toList))

def orFault {α : Type} (e : DataFault) (a : Option α) : Except ReadError α :=
  match a with
  | some a => .ok a
  | none => .error (.fault e)

/-- Splits off a sign. A text without anything else has no digits. -/
def signed (cs : List Char) : Except ReadError (Bool × List Char) :=
  if cs.isEmpty then .error (.fault .noDigits) else .ok (Numeral.sign cs)

/-- The value of places to base sixty, the least one first. -/
def sexagesimalInt (places : List Int) : Int := places.foldr (fun d n => d + 60 * n) 0

/-- An unsigned integer in one of the notations. -/
def magnitude? (cs : List Char) : Option Int :=
  match cs with
  | '0' :: 'b' :: rest => Numeral.toBase? 2 rest
  | '0' :: 'x' :: rest => Numeral.toBase? 16 rest
  | '0' :: rest => if rest.isEmpty then some 0 else Numeral.toBase? 8 cs
  | _ =>
    match Text.splitOn ':' cs with
    | [cs] => Numeral.int? cs
    | places => (places.reverse.mapM Numeral.int?).map sexagesimalInt

/-- An integer. Bars in it are passed over. -/
def intOf (s : String) : Except ReadError Int := do
  let (negative, cs) ← signed (s.toList.filter (· ≠ '_'))
  if cs.isEmpty then throw (.fault .noDigits)
  let n ← orFault .noSuchValue (magnitude? cs)
  pure (if negative then -n else n)

/-- A power of sixty as a float, if there is one so great. -/
def sixtyTo (n : Nat) : Except ReadError Float :=
  (Number.int (Nat.pow 60 n)).toFloat.mapError fun _ => .fault .codeTooLarge

/-- The value of places to base sixty, the least one first. -/
def sexagesimalFloat (places : List Float) : Except ReadError Float :=
  places.zipIdx.foldlM (fun sum (x, n) => do pure (sum + x * (← sixtyTo n))) 0

/-- A float without its sign. -/
def unsignedFloat (cs : List Char) : Except ReadError Float :=
  if cs = ".inf".toList then .ok (1.0 / 0.0)
  else if cs = ".nan".toList then .ok (0.0 / 0.0)
  else
    match Text.splitOn ':' cs with
    | [cs] => orFault .noSuchValue (Numeral.float? cs)
    | places => do
      sexagesimalFloat (← orFault .noSuchValue (places.reverse.mapM Numeral.float?))

/-- A float. Bars in it are passed over. -/
def floatOf (s : String) : Except ReadError Float := do
  let (negative, cs) ← signed (s.toList.filter (· ≠ '_') |>.map Char.toLower)
  let x ← unsignedFloat cs
  pure (if negative then -x else x)

/-- The flag a word stands for, in any case. -/
def bool? (s : String) : Option Bool :=
  let word := s.toLower
  if trueWords.contains word then some true
  else if falseWords.contains word then some false
  else none

/-- A date or point in time. -/
def timestampOf (s : String) : Except ReadError Scalar := do
  let t ← orFault .noDate (timestamp? (unbroken s.toList))
  orFault .noSuchValue (calendarScalar? t)

def read (f : Form) (s : String) : Except ReadError Scalar :=
  match f with
  | .bool => (orFault .noSuchFlag (bool? s)).map .bool
  | .float => (floatOf s).map fun x => .number (.float x)
  | .int => (intOf s).map fun n => .number (.int n)
  | .null => .ok .null
  | .timestamp => timestampOf s
  | .binary => (orMalformed (Binary.decode? s)).map .bytes
  | .merge | .value => .error .malformed
  | .text => .ok (.text s)

end Form
end AtomicCss.Yaml

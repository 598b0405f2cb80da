import AtomicCss.Json.Reader
import AtomicCss.Number.Numeral
import AtomicCss.Toml.Table

/-!
# Reading TOML

A text is a sequence of lines: headers, keys with values, comments. The readers of its parts give
what they find at the front of a text, with the rest.
-/
namespace AtomicCss.Toml

inductive ReadError
  | malformed
  /-- An integer is longer than integers may be. -/
  | tooManyDigits
  deriving DecidableEq

/-- What is there, or a malformed text. -/
def orMalformed {α : Type} (a : Option α) : Except ReadError α :=
  match a with
  | some a => .ok a
  | none => .error .malformed

def isBlank (c : Char) : Bool := c = ' ' || c = '\t'

def skip (cs : List Char) : List Char := cs.dropWhile isBlank

/-- Control characters, the tab excepted. -/
def isControl (c : Char) : Bool := (c.toNat < 32 && c ≠ '\t') || c.toNat = 127

/-- Skips a comment, which has no control characters. -/
def comment? (cs : List Char) : Option (List Char) :=
  match cs with
  | '#' :: cs =>
    let (text, rest) := cs.span (· ≠ '\n')
    if text.any isControl then none else some rest
  | cs => some cs

def escapes : List (Char × Char) :=
  [('b', '\x08'), ('t', '\t'), ('n', '\n'), ('f', '\x0c'), ('r', '\r'), ('"', '"'), ('\\', '\\')]

/-- The character of an escape, after the backslash. -/
def escaped? (cs : List Char) : Option (Char × List Char) := do
  match cs with
  | [] => none
  | c :: rest =>
    match escapes.find? fun e => e.1 = c with
    | some (_, d) => some (d, rest)
    | none =>
      let width ← if c = 'u' then some 4 else if c = 'U' then some 8 else none
      let digits := rest.take width
      guard (digits.length = width)
      let n ← Digit.hexNumber? digits
      guard (n < 0xD800 || (0xE000 ≤ n && n < 0x110000))
      some (Char.ofNat n, rest.drop width)

/-- What follows a backslash that stands at the end of a line, line ends and blanks dropped. -/
def continued? (cs : List Char) : Option (List Char) :=
  if cs.head?.any fun c => isBlank c || c = '\n' then
    match skip cs with
    | [] => some []
    | '\n' :: rest => some (rest.dropWhile fun c => isBlank c || c = '\n')
    | _ => none
  else none

/-- The rest of a string with escapes, up to its closing quotes. -/
def basic (multiline : Bool) : (fuel : Nat) → List Char → Option (List Char × List Char)
  | 0, _ => none
  | _, [] => none
  | fuel + 1, c :: cs =>
    let more (d : List Char) (rest : List Char) : Option (List Char × List Char) :=
      (basic multiline fuel rest).map fun (text, rest) => (d ++ text, rest)
    if c = '"' then
      if !multiline then some ([], cs)
      else
        match cs with
        | '"' :: '"' :: rest => some ([], rest)
        | _ => more [c] cs
    else if c = '\\' then
      if multiline && cs.head?.any fun d => isBlank d || d = '\n' then
        (continued? cs).bind (more [])
      else (escaped? cs).bind fun (d, rest) => more [d] rest
    else if isControl c && !(multiline && c = '\n') then none
    else more [c] cs

/-- The rest of a string without escapes on one line. -/
def literal (cs : List Char) : Option (List Char × List Char) :=
  let (text, rest) := cs.span (· ≠ '\'')
  if rest.isEmpty || text.any isControl then none else some (text, rest.tail)

/-- The rest of a string without escapes on several lines. -/
def literalLines : List Char → Option (List Char × List Char)
  | [] => none
  | '\'' :: '\'' :: '\'' :: rest => some ([], rest)
  | c :: cs =>
    if isControl c && c ≠ '\n' then none
    else (literalLines cs).map fun (text, rest) => (c :: text, rest)

/-- Up to two quotes at the end of a string belong to it. -/
def trailing (mark : Char) (text rest : List Char) : List Char × List Char :=
  let extra := (rest.takeWhile (· = mark)).take 2
  (text ++ extra, rest.drop extra.length)

def dropBreak (cs : List Char) : List Char :=
  match cs with
  | '\n' :: rest => rest
  | cs => cs

/-- A string of any of the four kinds. -/
def string? (cs : List Char) : Option (List Char × List Char) :=
  match cs with
  | '"' :: '"' :: '"' :: rest =>
    (basic true (rest.length + 1) (dropBreak rest)).map fun (text, rest) => trailing '"' text rest
  | '"' :: rest => basic false (rest.length + 1) rest
  | '\'' :: '\'' :: '\'' :: rest =>
    (literalLines (dropBreak rest)).map fun (text, rest) => trailing '\'' text rest
  | '\'' :: rest => literal rest
  | _ => none

def isBare (c : Char) : Bool := c.isAlphanum || c = '-' || c = '_'

/-- One part of a key. Strings in keys stand on one line. -/
def keyPart? (cs : List Char) : Option (String × List Char) :=
  match cs with
  | '"' :: rest => (basic false (rest.length + 1) rest).map fun (s, rest) => (String.ofList s, rest)
  | '\'' :: rest => (literal rest).map fun (s, rest) => (String.ofList s, rest)
  | cs =>
    let (name, rest) := cs.span isBare
    if name.isEmpty then none else some (String.ofList name, rest)

/-- A key of parts between points. -/
def key? : (fuel : Nat) → List Char → Option (List String × List Char)
  | 0, _ => none
  | fuel + 1, cs => do
    let (part, rest) ← keyPart? cs
    match skip rest with
    | '.' :: rest =>
      let (parts, rest) ← key? fuel (skip rest)
      some (part :: parts, rest)
    | rest => some ([part], rest)

/-- A run of digits, single bars between them. -/
def digitRun (p : Char → Bool) : List Char → List Char × List Char
  | [] => ([], [])
  | c :: cs =>
    if p c then
      let (ds, rest) := digitRun p cs
      (c :: ds, rest)
    else
      match c, cs with
      | '_', d :: _ =>
        if p d then digitRun p cs else ([], c :: cs)
      | _, _ => ([], c :: cs)

/-- A run of digits that begins with one. -/
def digits? (p : Char → Bool) (cs : List Char) : Option (List Char × List Char) :=
  if cs.head?.any p then some (digitRun p cs) else none

/-- An integer to a base other than ten. -/
def based? (mark : Char) (base : Nat) (cs : List Char) : Option (Int × List Char) :=
  match cs with
  | '0' :: c :: rest =>
    if c = mark then
      (digits? (fun d => (Digit.hexValue? d).any (· < base)) rest).bind fun (ds, rest) =>
        let n? := ds.foldlM (fun n d => (Digit.hexValue? d).map (base * n + ·)) 0
        n?.map fun n => ((n : Int), rest)
    else none
  | _ => none

/-- The digits after a point, with the point, if there are any. -/
def fraction (cs : List Char) : List Char × List Char :=
  match cs with
  | '.' :: rest =>
    match digits? Char.isDigit rest with
    | some (ds, rest) => ('.' :: ds, rest)
    | none => ([], cs)
  | _ => ([], cs)

/-- An exponent, with its mark, if there is a whole one. -/
def exponent (cs : List Char) : List Char × List Char :=
  match cs with
  | c :: rest =>
    if c = 'e' || c = 'E' then
      let sign := rest.take (if rest.head?.any fun s => s = '+' || s = '-' then 1 else 0)
      match digits? Char.isDigit (rest.drop sign.length) with
      | some (ds, rest) => ('e' :: sign ++ ds, rest)
      | none => ([], cs)
    else ([], cs)
  | [] => ([], cs)

/-- A decimal number, which is a float if it has a fraction or an exponent. A number with too many
digits has no value. -/
def decimal? (cs : List Char) : Option (Option Number × List Char) := do
  let (_, unsigned) := Numeral.sign cs
  let sign := cs.take (cs.length - unsigned.length)
  let (whole, rest) ← match unsigned with
    | '0' :: rest => some (['0'], rest)
    | _ => digits? Char.isDigit unsigned
  let (fraction, rest) := fraction rest
  let (exponent, rest) := exponent rest
  let text := sign ++ whole ++ fraction ++ exponent
  if fraction.isEmpty && exponent.isEmpty then some ((Numeral.int? text).map .int, rest)
  else some ((Numeral.float? text).map .float, rest)

def special : List (String × Float) :=
  [("inf", 1.0 / 0.0), ("nan", 0.0 / 0.0), ("+inf", 1.0 / 0.0), ("-inf", -(1.0 / 0.0)),
    ("+nan", 0.0 / 0.0), ("-nan", 0.0 / 0.0)]

def number? (cs : List Char) : Option (Option Number × List Char) :=
  ((((based? 'x' 16 cs).orElse fun _ => based? 'b' 2 cs).orElse fun _ => based? 'o' 8 cs).map
      fun (n, rest) => (some (Number.int n), rest)).orElse fun _ =>
    (decimal? cs).orElse fun _ =>
      special.findSome? fun (word, x) =>
        (Text.after? word.toList cs).map fun rest => (some (.float x), rest)

/-- A number of just so many digits within bounds. -/
def field? (width least most : Nat) (cs : List Char) : Option (Nat × List Char) :=
  let ds := cs.take width
  let n := Numeral.ofDigits (Json.digitValues ds)
  if ds.length = width && ds.all Char.isDigit && least ≤ n && n ≤ most then some (n, cs.drop width)
  else none

def mark? (c : Char) (cs : List Char) : Option (List Char) := Text.after? [c] cs

/-- A time of day, of which the date is still to be set. Of its fraction six places count. -/
def time? (cs : List Char) : Option (Moment × List Char) := do
  let (hour, rest) ← field? 2 0 23 cs
  let (minute, rest) ← field? 2 0 59 (← mark? ':' rest)
  let (second, rest) ← field? 2 0 59 (← mark? ':' rest)
  let clock (micro : Nat) : Moment :=
    { date := ⟨1, 1, 1⟩, hour, minute, second, micro, offset := none }
  match rest with
  | '.' :: more =>
    let (ds, after) := more.span Char.isDigit
    if ds.isEmpty then some (clock 0, rest)
    else
      let places := ds.take 6 ++ List.replicate (6 - ds.length) '0'
      some (clock (Numeral.ofDigits (Json.digitValues places)), after)
  | _ => some (clock 0, rest)

/-- The offset of a point in time, if there is one. -/
def offset (cs : List Char) : Option Int × List Char :=
  match cs with
  | c :: rest =>
    if c = 'Z' || c = 'z' then (some 0, rest)
    else if c = '+' || c = '-' then
      let ahead? : Option (Int × List Char) := do
        let (hours, rest) ← field? 2 0 23 rest
        let (minutes, rest) ← field? 2 0 59 (← mark? ':' rest)
        some (60 * hours + minutes, rest)
      match ahead? with
      | some (ahead, after) => (some (if c = '-' then -ahead else ahead), after)
      | none => (none, cs)
    else (none, cs)
  | [] => (none, cs)

/-- A date, possibly with a time. `none` inside stands for a date that is not in the calendar. -/
def date? (cs : List Char) : Option (Option Scalar × List Char) := do
  let (year, rest) ← field? 4 0 9999 cs
  let (month, rest) ← field? 2 1 12 (← mark? '-' rest)
  let (day, rest) ← field? 2 1 31 (← mark? '-' rest)
  let date : Date := ⟨year, month, day⟩
  let valid (s : Scalar) : Option Scalar := if Calendar.hasDate date then some s else none
  match rest with
  | c :: more =>
    match if c = 'T' || c = 't' || c = ' ' then time? more else none with
    | some (clock, rest) =>
      let (zone, rest) := offset rest
      some (valid (.moment { clock with date, offset := zone }), rest)
    | none => some (valid (.date date), rest)
  | [] => some (valid (.date date), rest)

/-- Blanks, line ends and comments between the items of an array. -/
def skipLines : (fuel : Nat) → List Char → Option (List Char)
  | 0, cs => some cs
  | fuel + 1, cs =>
    match cs with
    | [] => some []
    | c :: rest =>
      if isBlank c || c = '\n' then skipLines fuel rest
      else if c = '#' then (comment? cs).bind (skipLines fuel)
      else some cs

/-- A value that is neither an array nor a table. -/
def scalar (cs : List Char) : Except ReadError (Document × List Char) :=
  match cs with
  | [] => .error .malformed
  | c :: _ =>
    if c = '"' || c = '\'' then
      (orMalformed (string? cs)).map fun (s, rest) => (.scalar (.text (String.ofList s)), rest)
    else
      match Text.after? "true".toList cs, Text.after? "false".toList cs with
      | some rest, _ => .ok (.scalar (.bool true), rest)
      | _, some rest => .ok (.scalar (.bool false), rest)
      | none, none =>
        match date? cs, time? cs, number? cs with
        | some (some s, rest), _, _ => .ok (.scalar s, rest)
        | some (none, _), _, _ => .error .malformed
        | none, some (m, rest), _ => .ok (.scalar (.clock m.clockText), rest)
        | none, none, some (some n, rest) => .ok (.scalar (.number n), rest)
        | none, none, some (none, _) => .error .tooManyDigits
        | none, none, none => .error .malformed

mutual

def value : (fuel : Nat) → List Char → Except ReadError (Document × List Char)
  | 0, _ => .error .malformed
  | fuel + 1, cs =>
    match cs with
    | '[' :: rest => do
      let rest ← orMalformed (skipLines (rest.length + 1) rest)
      match rest with
      | ']' :: rest => pure (.list [], rest)
      | _ =>
        let (ds, rest) ← items fuel rest
        pure (.list ds, rest)
    | '\x7b' :: rest =>
      match skip rest with
      | '\x7d' :: rest => .ok (.map [], rest)
      | rest => (inline fuel [] rest).map fun (ms, rest) => (.map (documentMembers ms), rest)
    | _ => scalar cs

/-- The items of an array up to its end. A comma may follow the last. -/
def items : (fuel : Nat) → List Char → Except ReadError (List Document × List Char)
  | 0, _ => .error .malformed
  | fuel + 1, cs => do
    let (d, rest) ← value fuel cs
    match ← orMalformed (skipLines (rest.length + 1) rest) with
    | ']' :: rest => pure ([d], rest)
    | ',' :: rest =>
      match ← orMalformed (skipLines (rest.length + 1) rest) with
      | ']' :: rest => pure ([d], rest)
      | rest =>
        let (ds, rest) ← items fuel rest
        pure (d :: ds, rest)
    | _ => throw .malformed

/-- A key with its value. -/
def pair : (fuel : Nat) → List Char → Except ReadError ((List String × Document) × List Char)
  | 0, _ => .error .malformed
  | fuel + 1, cs => do
    let (key, rest) ← orMalformed (key? (cs.length + 1) cs)
    let (d, rest) ← value fuel (skip (← orMalformed (mark? '=' rest)))
    pure ((key, d), rest)

def inline : (fuel : Nat) → Members → List Char → Except ReadError (Members × List Char)
  | 0, _, _ => .error .malformed
  | fuel + 1, ms, cs => do
    let ((key, d), rest) ← pair fuel cs
    let ms ← orMalformed (ms.enter 0 d key)
    match skip rest with
    | '\x7d' :: rest => pure (ms, rest)
    | ',' :: rest => inline fuel ms (skip rest)
    | _ => throw .malformed

end

/-- The members so far, the header in effect and the number of headers. -/
structure Progress where
  members : Members := []
  header : List String := []
  count : Nat := 0

/-- A header line, after its opening bracket. -/
def header? (p : Progress) (cs : List Char) : Option (Progress × List Char) := do
  let (array, cs) := match cs with
    | '[' :: rest => (true, rest)
    | _ => (false, cs)
  let (key, rest) ← key? (cs.length + 1) (skip cs)
  let rest ← Text.after? (if array then [']', ']'] else [']']) rest
  let members ← p.members.open? (p.count + 1) array key
  some ({ members, header := key, count := p.count + 1 }, rest)

/-- A key with its value, in the section of the present header. -/
def assignment (p : Progress) (cs : List Char) : Except ReadError (Progress × List Char) := do
  let ((key, d), rest) ← pair (cs.length + 2) cs
  let members ← orMalformed (p.members.change (Members.enter p.count d key) p.header)
  pure ({ p with members }, rest)

/-- One line, as far as it says anything. -/
def statement (p : Progress) (cs : List Char) : Except ReadError (Progress × List Char) :=
  match cs with
  | [] => .ok (p, [])
  | '[' :: rest => orMalformed (header? p rest)
  | c :: _ => if c = '\n' || c = '#' then .ok (p, cs) else assignment p cs

def lines : (fuel : Nat) → Progress → List Char → Except ReadError Members
  | 0, _, _ => .error .malformed
  | fuel + 1, p, cs => do
    let (p, rest) ← statement p (skip cs)
    match ← orMalformed (comment? (skip rest)) with
    | [] => pure p.members
    | '\n' :: rest => lines fuel p rest
    | _ => throw .malformed

def read (text : String) : Except ReadError Document :=
  let cs := text.toList
  (lines (cs.length + 1) {} cs).map fun ms => .map (documentMembers ms)

end AtomicCss.Toml

import AtomicCss.Value.Basic

/-!
# Writing JSON

One writer serves all places where JSON is written; they differ in a `Layout`: whether members
stand on lines of their own, and whether characters beyond ASCII are escaped.
-/
namespace AtomicCss.Json

structure Layout where
  /-- The width of one indentation step; nothing is broken over lines without it. -/
  indent : Option Nat
  /-- Whether every character outside the printable ASCII range is escaped. -/
  ascii : Bool

/-- The text of values within style keys. -/
def Layout.key : Layout := ⟨none, true⟩

/-- The text of class-map files. -/
def Layout.file : Layout := ⟨some 2, false⟩

/-- The text of saved schemas and of command output. -/
def Layout.asciiFile : Layout := ⟨some 2, true⟩

/-- One line, with no character escaped that need not be. -/
def Layout.plain : Layout := ⟨none, false⟩

/-- Floats without a numeral are named. -/
def floatNotation : Decimal.Notation :=
  { Decimal.Notation.program with infinity := "Infinity", notANumber := "NaN" }

def numberText : Number → String
  | .int n => Number.intText n
  | .float x => floatNotation.text x

def unitEscape (n : Nat) : List Char := '\\' :: 'u' :: Quoted.hex 4 n

/-- The escape of a character: one unit, or two for a character beyond 16 bits. -/
def charEscape (c : Char) : List Char :=
  let n := (Surrogate.half? c).getD c.toNat
  if n < 0x10000 then unitEscape n
  else unitEscape (0xD800 + (n - 0x10000) / 0x400) ++ unitEscape (0xDC00 + (n - 0x10000) % 0x400)

def stringChar (ascii : Bool) (c : Char) : List Char :=
  if c = '"' then ['\\', '"']
  else if c = '\\' then ['\\', '\\']
  else if c = '\n' then ['\\', 'n']
  else if c = '\r' then ['\\', 'r']
  else if c = '\t' then ['\\', 't']
  else if c = '\x0c' then ['\\', 'f']
  else if c = '\x08' then ['\\', 'b']
  else if c.toNat < 0x20 ∨ (ascii ∧ 0x7F ≤ c.toNat) then charEscape c
  else [c]

def stringText (ascii : Bool) (s : String) : String :=
  String.ofList ('"' :: s.toList.flatMap (stringChar ascii) ++ ['"'])

/-- A line break with indentation, or nothing in one-line layouts. -/
def Layout.break (f : Layout) (depth : Nat) : String :=
  match f.indent with
  | some width => "\n" ++ String.ofList (List.replicate (width * depth) ' ')
  | none => ""

/-- What stands between a member's key and its value. -/
def Layout.colon (f : Layout) : String := if f.indent.isSome then ": " else ":"

mutual

def write (f : Layout) (depth : Nat) : Value → String
  | .null => "null"
  | .bool b => if b then "true" else "false"
  | .number n => numberText n
  | .text s => stringText f.ascii s
  | .list [] => "[]"
  | .list (v :: items) =>
    "[" ++ f.break (depth + 1) ++ write f (depth + 1) v ++ writeItems f (depth + 1) items
      ++ f.break depth ++ "]"
  | .map [] => "\x7b\x7d"
  | .map ((k, v) :: members) =>
    "\x7b" ++ f.break (depth + 1) ++ stringText f.ascii k ++ f.colon ++ write f (depth + 1) v
      ++ writeMembers f (depth + 1) members ++ f.break depth ++ "\x7d"

/-- The items after the first, each with the comma before it. -/
def writeItems (f : Layout) (depth : Nat) : List Value → String
  | [] => ""
  | v :: items => "," ++ f.break depth ++ write f depth v ++ writeItems f depth items

/-- The members after the first, each with the comma before it. -/
def writeMembers (f : Layout) (depth : Nat) : List (String × Value) → String
  | [] => ""
  | (k, v) :: members =>
    "," ++ f.break depth ++ stringText f.ascii k ++ f.colon ++ write f depth v
      ++ writeMembers f depth members

end

def text (f : Layout) (v : Value) : String := write f 0 v

end AtomicCss.Json

import AtomicCss.Number.Decimal

/-!
# Numbers as authored

A number is an integer of any size or a binary64 float, and remembers which of the two it is:
`8` and `8.0` are equal but are written differently. Comparison between the two kinds is exact.
Arithmetic that leaves the integers goes through binary64 and fails where that has no answer.
-/
namespace AtomicCss

namespace Numeral

/-- Integers of more digits than this are neither read nor written. -/
def digitLimit : Nat := 4300

def IsShort (n : Int) : Prop := (Nat.toDigits 10 n.natAbs).length ≤ digitLimit

instance : DecidablePred IsShort := fun _ => inferInstanceAs (Decidable (_ ≤ _))

end Numeral

inductive Number
  | int (n : Int)
  | float (x : Float)

inductive NumberError
  /-- The result is beyond the largest float. -/
  | overflow
  /-- A text is no numeral, a number that is not one was to become an integer, or an integer is too
  long to be written. -/
  | notANumber
  /-- Something other than a number took part. -/
  | notNumeric
  | divisionByZero
  deriving DecidableEq

namespace Number

instance : Inhabited Number := ⟨.int 0⟩

instance (n : Nat) : OfNat Number n := ⟨.int n⟩

def intText (n : Int) : String :=
  if n < 0 then "-" ++ Decimal.digits n.natAbs else Decimal.digits n.natAbs

/-- The text of an integer that is not too long to be written. -/
def intText? (n : Int) : Option String := if Numeral.IsShort n then some (intText n) else none

def text : Number → String
  | .int n => intText n
  | .float x => Decimal.Notation.program.text x

/-- The exact value, which infinities and non-numbers lack. -/
def ratio? : Number → Option Ratio
  | .int n => some (.ofInt n)
  | .float x => x.ratio?

def integer? : Number → Option Int
  | .int n => some n
  | .float x => x.integer?

/-- The integer nearest to zero among those next to the number: its fraction is cut off. -/
def truncate : Number → Except NumberError Int
  | .int n => .ok n
  | .float x =>
    match Binary.ofFloat x with
    | .finite m q =>
      .ok (if 0 ≤ q then m * Nat.pow 2 q.toNat else m.tdiv (Nat.pow 2 (-q).toNat))
    | .infinite _ => .error .overflow
    | .notANumber => .error .notANumber

/-- The nearest float. An integer beyond the floats has none. -/
def toFloat : Number → Except NumberError Float
  | .int n =>
    let x := (Ratio.ofInt n).nearest
    if x.isFinite then .ok x else .error .overflow
  | .float x => .ok x

/-- Exact comparison; nothing compares with a float that is no number. -/
def compare? (a b : Number) : Option Ordering :=
  match a.ratio?, b.ratio? with
  | some r, some s => some (r.compare s)
  | r, s =>
    match a, b with
    | .float x, .float y =>
      if x < y then some .lt else if y < x then some .gt else if x == y then some .eq else none
    | .float x, .int _ => if r.isSome ∨ x.isNaN then none else some (if x < 0 then .lt else .gt)
    | .int _, .float y => if s.isSome ∨ y.isNaN then none else some (if y < 0 then .gt else .lt)
    | .int _, .int _ => none

def equal (a b : Number) : Bool := a.compare? b == some .eq

def less (a b : Number) : Bool := a.compare? b == some .lt

def atMost (a b : Number) : Bool := a.less b || a.equal b

def isZero (a : Number) : Bool := a.equal 0

/-- The quotient as a float. A quotient of two integers is rounded once. -/
def divide (a b : Number) : Except NumberError Float := do
  match a, b with
  | .int n, .int d =>
    if d = 0 then throw .divisionByZero
    let y := Ratio.nearestSigned ((n < 0) != (d < 0)) ⟨n, d.natAbs⟩
    if y.isFinite then pure y else throw .overflow
  | _, _ =>
    let x ← a.toFloat
    let y ← b.toFloat
    if y == 0 then throw .divisionByZero
    pure (x / y)

/-- The sum, which is an integer only if both terms are. -/
def add (a b : Number) : Except NumberError Number := do
  match a, b with
  | .int m, .int n => pure (.int (m + n))
  | _, _ => pure (.float ((← a.toFloat) + (← b.toFloat)))

/-- The nearest integer, halves going up. One half is added in binary64, so a number just below a
half that is nearest to one after the addition goes up as well. -/
def roundHalfUp (a : Number) : Except NumberError Int := do
  match Binary.ofFloat (← a.toFloat) with
  | .finite m q =>
    match ((Ratio.scaled m 2 q).add ⟨1, 2⟩).nearest.ratio? with
    | some r => pure r.floor
    | none => throw .overflow
  | .infinite _ => throw .overflow
  | .notANumber => throw .notANumber

/-- An integral float becomes the integer it equals. -/
def normalize : Number → Number
  | .int n => .int n
  | .float x =>
    match x.integer? with
    | some n => .int n
    | none => .float x

end Number
end AtomicCss

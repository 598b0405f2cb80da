import AtomicCss.Number.Binary

/-!
# Decimal text of numbers

The digits of a float are the shortest that read back to it: among the decimals that round to the
number, those on the coarsest power-of-ten grid, and of these the nearest. The interval of reals
that round to a number ends halfway to its neighbours, ends included when the mantissa is even.
How digits are laid out is a separate `Notation` value, chosen where a text is written.
-/
namespace AtomicCss
namespace Decimal

def digits (n : Nat) : String := Nat.repr n

/-- The decimal digits, after zeros up to a width. -/
def padded (width n : Nat) : String :=
  let s := digits n
  String.ofList (List.replicate (width - s.length) '0') ++ s

/-- A decimal number `coefficient * 10 ^ exponent`. -/
structure Scientific where
  coefficient : Nat
  exponent : Int

/-- The reals that round to one binary64 magnitude, as multiples of a common unit `2 ^ exponent`. -/
structure Interval where
  low : Nat
  value : Nat
  high : Nat
  exponent : Int
  closed : Bool

/-- The rounding interval of `m * 2 ^ q`. The gap below a power of two is half the gap above. -/
def Interval.around (m : Nat) (q : Int) : Interval :=
  let narrow := m = Binary.leadingBit ∧ -1074 < q
  { low := if narrow then 4 * m - 1 else 4 * m - 2
    value := 4 * m
    high := 4 * m + 2
    exponent := q - 2
    closed := m % 2 = 0 }

/-- The multiple of `10 ^ k` inside the interval that lies nearest to its value, a tie going to
the even multiple. -/
def Interval.onGrid? (i : Interval) (k : Int) : Option Nat :=
  -- both sides in a common unit: the interval's numbers times `u`, the grid's steps times `t`
  let u := Nat.pow 2 i.exponent.toNat * Nat.pow 10 (-k).toNat
  let t := Nat.pow 2 (-i.exponent).toNat * Nat.pow 10 k.toNat
  let low := i.low * u
  let value := i.value * u
  let high := i.high * u
  let inside (d : Nat) : Bool :=
    if i.closed then low ≤ d * t ∧ d * t ≤ high else low < d * t ∧ d * t < high
  let below := value / t
  let above := below + 1
  match inside below && below != 0, inside above with
  | true, true =>
    match compare (value - below * t) (above * t - value) with
    | .lt => some below
    | .gt => some above
    | .eq => if below % 2 = 0 then some below else some above
  | true, false => some below
  | false, true => some above
  | false, false => none

/-- Searches ever finer grids from `10 ^ k` on. -/
def Interval.search (i : Interval) : Nat → Int → Option Scientific
  | 0, _ => none
  | n + 1, k =>
    match i.onGrid? k with
    | some d => some ⟨d, k⟩
    | none => i.search n (k - 1)

/-- The shortest decimal that reads back to `m * 2 ^ q`. The search starts above the magnitude's
own power of ten and ends within seventeen digits. -/
def shortest (m : Nat) (q : Int) : Scientific :=
  let i := Interval.around m q
  let start := ((m.log2 : Int) + q) * 30103 / 100000 + 2
  (i.search 24 start).getD
    ⟨m * Nat.pow 2 q.toNat * Nat.pow 5 (-q).toNat, -((-q).toNat : Int)⟩

/-- How the text of a float is laid out. -/
structure Notation where
  /-- Below this power of ten the exponent form is used. -/
  leastPlain : Int
  /-- From this power of ten on the exponent form is used. -/
  mostPlain : Int
  /-- Whether a lone digit before an exponent is followed by `.0`. -/
  pointBeforeExponent : Bool
  infinity : String
  notANumber : String

/-- Positional from `0.0001` up to `10 ^ 16`, else an exponent of at least two digits with its
sign; an integral number keeps one zero after the point. -/
def Notation.program : Notation := ⟨-4, 16, false, "inf", "nan"⟩

def zeros (n : Nat) : String := String.ofList (List.replicate n '0')

/-- The exponent's sign and at least two digits. -/
def exponentText (e : Int) : String :=
  let ds := digits e.natAbs
  (if e < 0 then "-" else "+") ++ (if ds.length < 2 then "0" ++ ds else ds)

/-- Lays out a nonzero magnitude. -/
def Notation.layout (f : Notation) (d : Scientific) : String :=
  let ds := digits d.coefficient
  let top : Int := d.exponent + ds.length - 1
  if f.leastPlain ≤ top ∧ top < f.mostPlain then
    if 0 ≤ d.exponent then ds ++ zeros d.exponent.toNat ++ ".0"
    else if 0 ≤ top then
      let cut := top.toNat + 1
      (ds.take cut).toString ++ "." ++ (ds.drop cut).toString
    else "0." ++ zeros (-top - 1).toNat ++ ds
  else
    let head := (ds.take 1).toString
    let rest := (ds.drop 1).toString
    let tail := if rest.isEmpty then (if f.pointBeforeExponent then ".0" else "") else "." ++ rest
    head ++ tail ++ "e" ++ exponentText top

def Notation.text (f : Notation) (x : Float) : String :=
  let sign := if x.signBit then "-" else ""
  match Binary.ofFloat x with
  | .notANumber => f.notANumber
  | .infinite _ => sign ++ f.infinity
  | .finite m q => sign ++ (if m = 0 then "0.0" else f.layout (shortest m.natAbs q))

end Decimal
end AtomicCss

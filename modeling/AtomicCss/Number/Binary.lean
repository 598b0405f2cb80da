/-!
# Exact values of binary64 numbers

A finite binary64 number is an integer multiple of a power of two, and here it is read as one.
In the other direction `nearest` rounds a quotient of integers to binary64 once, a tie going to
the even neighbour. Conversions, remainders and half-up rounding all pass through these two
functions, so each of them rounds exactly once and never overflows unnoticed.
-/
namespace AtomicCss

/-- What a binary64 number stands for: the real number `mantissa * 2 ^ exponent`, an infinity,
or no number at all. The sign of zero is not part of it. -/
inductive Binary
  | finite (mantissa : Int) (exponent : Int)
  | infinite (negative : Bool)
  | notANumber

/-- The weight of a mantissa's leading bit, which a bit pattern leaves out. -/
def Binary.leadingBit : Nat := 0x10000000000000

/-- A quotient of integers, the divisor being positive wherever one is built here. -/
structure Ratio where
  num : Int
  den : Nat

namespace Ratio

def ofInt (n : Int) : Ratio := ⟨n, 1⟩

/-- The ratio `n * base ^ e`. -/
def scaled (n : Int) (base : Nat) (e : Int) : Ratio :=
  if 0 ≤ e then ⟨n * base.pow e.toNat, 1⟩ else ⟨n, base.pow (-e).toNat⟩

def add (a b : Ratio) : Ratio := ⟨a.num * b.den + b.num * a.den, a.den * b.den⟩

def mul (a b : Ratio) : Ratio := ⟨a.num * b.num, a.den * b.den⟩

def floor (a : Ratio) : Int := a.num / (a.den : Int)

def compare (a b : Ratio) : Ordering :=
  Ord.compare (a.num * b.den) (b.num * a.den)

/-- The representative of `a` in `[0, n)` modulo `n`. -/
def modulo (a : Ratio) (n : Nat) : Ratio := ⟨a.num % ((n * a.den : Nat) : Int), a.den⟩

/-- `n / d` rounded to an integer, a tie going to the even one. -/
def roundEven (n d : Nat) : Nat :=
  let q := n / d
  let r := 2 * (n % d)
  if d < r ∨ (r = d ∧ q % 2 = 1) then q + 1 else q

/-- The exponent `g` with `2 ^ g ≤ n / d < 2 ^ (g + 1)`. -/
def binade (n d : Nat) : Int :=
  let g : Int := (n.log2 : Int) - (d.log2 : Int)
  let reaches :=
    if 0 ≤ g then decide (d * Nat.pow 2 g.toNat ≤ n) else decide (d ≤ n * Nat.pow 2 (-g).toNat)
  if reaches then g else g - 1

def infinityBits : Nat := 0x7FF0000000000000

/-- The bit pattern of the binary64 magnitude nearest to `n / d`. The mantissa is added to the
shifted exponent, so that a mantissa rounded up to the next power of two carries by itself. -/
def nearestBits (n d : Nat) : Nat :=
  if n = 0 ∨ d = 0 then 0
  else
    let e := max (binade n d - 52) (-1074)
    let q :=
      if 0 ≤ e then roundEven n (d * Nat.pow 2 e.toNat) else roundEven (n * Nat.pow 2 (-e).toNat) d
    min ((e + 1074).toNat * Binary.leadingBit + q) infinityBits

/-- The binary64 number nearest to a ratio, a zero result having the given sign. -/
def nearestSigned (negative : Bool) (a : Ratio) : Float :=
  let bits := nearestBits a.num.natAbs a.den
  Float.ofBits (UInt64.ofNat (if negative then 0x8000000000000000 + bits else bits))

/-- The binary64 number nearest to a ratio, zero being positive. -/
def nearest (a : Ratio) : Float := nearestSigned (a.num < 0) a

end Ratio

namespace Binary

/-- Reads the sign, exponent and fraction fields of a bit pattern. -/
def ofBits (bits : Nat) : Binary :=
  let negative := 0x8000000000000000 ≤ bits
  let e : Nat := bits / leadingBit % 2048
  let f : Nat := bits % leadingBit
  if e = 2047 then (if f = 0 then .infinite negative else .notANumber)
  else
    let m : Nat := if e = 0 then f else leadingBit + f
    let q : Int := if e = 0 then -1074 else (e : Int) - 1075
    .finite (if negative then -m else m) q

def ofFloat (x : Float) : Binary := ofBits x.toBits.toNat

/-- The exact ratio of a finite number. -/
def ratio? : Binary → Option Ratio
  | .finite m q => some (.scaled m 2 q)
  | _ => none

end Binary

end AtomicCss

open AtomicCss

/-- The exact value of a float, if it has one. -/
def Float.ratio? (x : Float) : Option Ratio := (Binary.ofFloat x).ratio?

/-- The sign bit, which tells the two zeros apart. -/
def Float.signBit (x : Float) : Bool := 0x8000000000000000 ≤ x.toBits.toNat

def Float.integer? (x : Float) : Option Int :=
  x.ratio?.bind fun r => if r.num % (r.den : Int) = 0 then some r.floor else none

/-- The remainder of `x` after division by a positive modulus, with the sign of the modulus. A
negative `x` may round up to the modulus itself. A number without a value has no remainder. -/
def Float.modulo (x : Float) (n : Nat) : Float :=
  match x.ratio? with
  | some r => (r.modulo n).nearest
  | none => 0.0 / 0.0

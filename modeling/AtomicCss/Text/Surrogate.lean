/-!
# Halves of surrogate pairs

A 16-bit unit that is one half of a surrogate pair and stands alone is no character. So that text
with such a unit can be kept and written back, the unit is kept as the private character that lies
`0x100000` above it. The private characters from `U+10D800` to `U+10DFFF` are reserved for this: a
text that has one of them in its own right is not among the texts modelled.
-/
namespace AtomicCss.Surrogate

def isHalf (unit : Nat) : Bool := 0xD800 ≤ unit && unit < 0xE000

/-- The character that keeps a half. -/
def kept (unit : Nat) : Char := Char.ofNat (0x100000 + unit)

def half? (c : Char) : Option Nat :=
  let unit := c.toNat - 0x100000
  if 0x100000 ≤ c.toNat && isHalf unit then some unit else none

/-- Whether a text has a half that stands alone. -/
def isBroken (s : String) : Bool := s.toList.any fun c => (half? c).isSome

/-- The text with three replacement characters, one for each byte, in place of every half. -/
def mended (s : String) : String :=
  String.ofList (s.toList.flatMap fun c =>
    if (half? c).isSome then List.replicate 3 '\ufffd' else [c])

def charOf (code : Nat) : Char := if isHalf code then kept code else Char.ofNat code

end AtomicCss.Surrogate

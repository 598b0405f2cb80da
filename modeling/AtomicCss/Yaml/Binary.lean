import AtomicCss.Text.Cut

/-!
# Bytes written in base sixty-four

Each of sixty-four characters stands for six bits, and four of them for three bytes. Other
characters are passed over. Equals signs fill up the last four; with the fourth place filled so the
data end.
-/
namespace AtomicCss.Yaml.Binary

/-- The six bits of a character. -/
def sextet? (c : Char) : Option Nat :=
  if 'A' ≤ c ∧ c ≤ 'Z' then some (c.toNat - 'A'.toNat)
  else if 'a' ≤ c ∧ c ≤ 'z' then some (c.toNat - 'a'.toNat + 26)
  else if '0' ≤ c ∧ c ≤ '9' then some (c.toNat - '0'.toNat + 52)
  else if c = '+' then some 62
  else if c = '/' then some 63
  else none

/-- The bytes of up to four sextets, as many as they fill. -/
def bytesOf : List Nat → List UInt8
  | a :: b :: rest =>
    UInt8.ofNat (4 * a + b / 16) ::
      match rest with
      | c :: rest =>
        UInt8.ofNat (16 * (b % 16) + c / 4) ::
          match rest with
          | d :: _ => [UInt8.ofNat (64 * (c % 4) + d)]
          | [] => []
      | [] => []
  | _ => []

/-- The bytes of a text, given the sextets of the present four and the equals signs after them. -/
def decodeFrom (quad : List Nat) (fill : Nat) : List Char → Option (List UInt8)
  | [] => if quad.isEmpty then some [] else none
  | c :: cs =>
    if c = '=' then
      let fill := if 2 ≤ quad.length then fill + 1 else fill
      if 2 ≤ quad.length && 4 ≤ quad.length + fill then some (bytesOf quad)
      else decodeFrom quad fill cs
    else
      match sextet? c with
      | none => decodeFrom quad fill cs
      | some n =>
        let quad := quad ++ [n]
        if quad.length = 4 then (decodeFrom [] 0 cs).map (bytesOf quad ++ ·)
        else decodeFrom quad 0 cs

/-- The bytes of a text, which must be ASCII and complete. -/
def decode? (s : String) : Option (List UInt8) :=
  let cs := s.toList
  if cs.all fun c => c.toNat < 128 then decodeFrom [] 0 cs else none

end AtomicCss.Yaml.Binary

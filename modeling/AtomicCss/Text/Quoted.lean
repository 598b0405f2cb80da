import AtomicCss.Text.Printable
import AtomicCss.Text.Surrogate

/-!
# Quoted text in messages

A text is shown between single quotes, or between double quotes if it holds a single quote and no
double one. The quote, the backslash and characters that do not print are escaped.
-/
namespace AtomicCss.Quoted

def hexDigit (n : Nat) : Char := "0123456789abcdef".toList.getD n '0'

/-- The last `width` lower-case hexadecimal digits of a number. -/
def hex : (width n : Nat) → List Char
  | 0, _ => []
  | width + 1, n => hex width (n / 16) ++ [hexDigit (n % 16)]

/-- How a character is written between the given quotes, given which ones print. -/
def escape (prints : Char → Bool) (quote c : Char) : List Char :=
  if c = quote ∨ c = '\\' then ['\\', c]
  else if c = '\n' then ['\\', 'n']
  else if c = '\r' then ['\\', 'r']
  else if c = '\t' then ['\\', 't']
  else if prints c then [c]
  else
    match Surrogate.half? c with
    | some unit => '\\' :: 'u' :: hex 4 unit
    | none =>
      if c.toNat < 0x100 then '\\' :: 'x' :: hex 2 c.toNat
      else if c.toNat < 0x10000 then '\\' :: 'u' :: hex 4 c.toNat
      else '\\' :: 'U' :: hex 8 c.toNat

/-- The text between quotes, given which characters print. -/
def quoteWith (prints : Char → Bool) (s : String) : String :=
  let cs := s.toList
  let mark := if cs.contains '\'' && !cs.contains '"' then '"' else '\''
  String.ofList (mark :: cs.flatMap (escape prints mark) ++ [mark])

/-- The text between quotes. -/
def quote (s : String) : String := quoteWith Printable.isPrintable s

/-- The text between quotes, with nothing beyond printable ASCII. -/
def quoteAscii (s : String) : String := quoteWith (fun c => ' ' ≤ c && c ≤ '~') s

end AtomicCss.Quoted

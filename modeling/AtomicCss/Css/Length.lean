import AtomicCss.Number.Basic

/-!
# Lengths

A length is written in pixels, or in root-relative units for text sizes; a length of zero has no
unit. Integral amounts are written as integers.
-/
namespace AtomicCss

/-- What a length is given as. A flag counts as one or zero but is written as a word. -/
inductive Amount
  | flag (b : Bool)
  | number (n : Number)

namespace Amount

instance : Coe Number Amount := ⟨.number⟩

def count : Amount → Number
  | flag b => .int (if b then 1 else 0)
  | number n => n

def text : Amount → String
  | flag b => if b then "True" else "False"
  | number n => n.normalize.text

end Amount

namespace Length

def rootPixels : Amount := .number 16

def px (a : Amount) : String := if a.count.isZero then "0" else a.text ++ "px"

def rem (a root : Amount) : Except NumberError String := do
  if a.count.isZero then pure "0"
  else
    let units ← a.count.divide root.count
    pure ((Amount.number (.float units)).text ++ "rem")

end Length
end AtomicCss

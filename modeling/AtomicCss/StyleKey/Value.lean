import AtomicCss.Json.Writer

/-!
# The value part of a style key

Text stands for itself and a number is written in decimal; everything else is compact JSON.
Integral floats are written as integers, so that equal values give equal keys.
-/
namespace AtomicCss.StyleKey

def jsonText (v : Value) : String := Json.text .key v.normalize

def valueText : Value → String
  | .text s => s
  | .number n => n.normalize.text
  | v => jsonText v

end AtomicCss.StyleKey

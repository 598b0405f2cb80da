import AtomicCss.Number.Numeral
import AtomicCss.Number.Quotient
import AtomicCss.Value.Basic

/-!
# Colors

A color is authored as hue, saturation and lightness with an optional opacity, and written in CSS
as hexadecimal channels. Channels are computed in binary64 and rounded half up; out-of-range
colors are clamped channel by channel. Back from channels, the lightness is the exact percentage
rounded, while hue and saturation are computed in binary64.
-/
namespace AtomicCss

inductive ColorError
  /-- Fewer than three components; the argument shows them. -/
  | tooShort (shown : String)
  | number (e : NumberError)

def ColorError.message? : ColorError → Option String
  | tooShort shown => some ("HSLA color needs at least 3 components (got " ++ shown ++ ")")
  | number _ => none

inductive HexError
  | malformed (text : String)

def HexError.message : HexError → String
  | malformed s => "Invalid hex color: " ++ Quoted.quote s

/-- An opaque color in whole numbers: degrees and percentages. -/
structure Hsla where
  hue : Int
  saturation : Int
  lightness : Int
  deriving DecidableEq

namespace Hsla

def components (c : Hsla) : List Value :=
  [.number (.int c.hue), .number (.int c.saturation), .number (.int c.lightness), .number (.int 1)]

end Hsla

namespace Color

/-- A component as a float. Numerals in text are read. -/
def component : Value → Except NumberError Float
  | .number n => n.toFloat
  | .bool b => .ok (if b then 1 else 0)
  | .text s =>
    match Numeral.float? s.toList with
    | some x => .ok x
    | none => .error .notANumber
  | _ => .error .notNumeric

/-- A channel between zero and one as two hexadecimal digits. -/
def channel (x : Float) : Except NumberError String := do
  let n ← (Number.float (x * 255)).roundHalfUp
  pure (String.ofList (Quoted.hex 2 (max 0 (min 255 n)).toNat))

/-- Red, green and blue of a color whose saturation and lightness are between zero and one. -/
def rgb (hue saturation lightness : Float) : Float × Float × Float :=
  let h := hue.modulo 360
  let c := (1 - (2 * lightness - 1).abs) * saturation
  let x := c * (1 - ((h / 60).modulo 2 - 1).abs)
  let m := lightness - c / 2
  let (r, g, b) :=
    if h < 60 then (c, x, 0.0)
    else if h < 120 then (x, c, 0.0)
    else if h < 180 then (0.0, c, x)
    else if h < 240 then (0.0, x, c)
    else if h < 300 then (x, 0.0, c)
    else (c, 0.0, x)
  (r + m, g + m, b + m)

/-- Whether an opacity need not be written. -/
def opaqueAlpha : Option Value → Bool
  | none => true
  | some .null => true
  | some (.bool b) => b
  | some (.number n) => n.equal 1
  | some _ => false

/-- The hexadecimal form of a color's components. The opacity is left out if it is one or absent;
further components are ignored. -/
def hexOfComponents : List Value → Except ColorError String
  | h :: s :: l :: more =>
    let text : Except NumberError String := do
      let h ← component h
      let s ← component s
      let l ← component l
      let (r, g, b) := rgb h (s / 100) (l / 100)
      let solid := "#" ++ (← channel r) ++ (← channel g) ++ (← channel b)
      match more.head? with
      | none => pure solid
      | some a =>
        if opaqueAlpha (some a) then pure solid
        else pure (solid ++ (← channel (← component a)))
    text.mapError .number
  | few => .error (.tooShort (Value.list few).shown)

/-- The hexadecimal form of a color. Text is taken as a sequence of characters. -/
def hexOfHsla (color : Value) : Except ColorError String :=
  match color with
  | .map members =>
    let keys : List Value := members.map fun m => .text m.1
    if keys.length < 3 then .error (.tooShort (Value.list keys).shown)
    else .error (.number .notNumeric)
  | _ =>
    match color.elements? with
    | some components => hexOfComponents components
    | none => .error (.number .notNumeric)

/-- The three channels, each from 0 to 255, of three or six digits. -/
def channels? : List Nat → Option (Nat × Nat × Nat)
  | [r, g, b] => some (17 * r, 17 * g, 17 * b)
  | [r₁, r₀, g₁, g₀, b₁, b₀] => some (16 * r₁ + r₀, 16 * g₁ + g₀, 16 * b₁ + b₀)
  | _ => none

/-- The integer nearest to a float, halves going up. -/
def nearestInt (x : Float) : Int :=
  match (Number.float x).roundHalfUp with
  | .ok n => n
  | .error _ => 0

/-- The lightness halfway between the greatest and the least channel, as a percentage. -/
def lightnessOf (red green blue : Nat) : Int :=
  nearestQuotient (100 * (max (max red green) blue + min (min red green) blue : Nat)) (2 * 255)

/-- The color of three channels, rounded to whole degrees and percentages. -/
def ofChannels (red green blue : Nat) : Hsla :=
  let r := red.toFloat / 255
  let g := green.toFloat / 255
  let b := blue.toFloat / 255
  let high := max (max r g) b
  let low := min (min r g) b
  let delta := high - low
  let saturation :=
    if delta == 0 then 0.0
    else if (high + low) / 2 > 0.5 then delta / (2 - high - low)
    else delta / (high + low)
  let hue :=
    if delta == 0 then 0.0
    else if high == r then ((g - b) / delta + (if g < b then 6.0 else 0.0)) / 6
    else if high == g then ((b - r) / delta + 2) / 6
    else ((r - g) / delta + 4) / 6
  ⟨nearestInt (hue * 360), nearestInt (saturation * 100), lightnessOf red green blue⟩

/-- Reads `#rgb` or `#rrggbb`; the mark and white space around are optional. -/
def hslaOfHex (text : String) : Except HexError Hsla :=
  let digits := match Blank.strip text.toList with
    | '#' :: cs => cs
    | cs => cs
  match (digits.mapM Digit.hexValue?).bind channels? with
  | some (r, g, b) => .ok (ofChannels r g b)
  | none => .error (.malformed text)

end Color
end AtomicCss

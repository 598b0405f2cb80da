import AtomicCss.Number.Numeral
import AtomicCss.Text.Blank
import AtomicCss.Text.Cut
import AtomicCss.Text.Small

/-!
# Styles on the screen

A style is written as words: attributes, colors before and behind the text, and a link. Styles that
say the same have one canonical text, by which tags are matched.
-/
namespace AtomicCss.Console

def attributeWords : List (String × List String) :=
  [("bold", ["b"]), ("dim", ["d"]), ("italic", ["i"]), ("underline", ["u"]), ("blink", []),
    ("blink2", []), ("reverse", ["r"]), ("conceal", ["c"]), ("strike", ["s"]),
    ("underline2", ["uu"]), ("frame", []), ("encircle", []), ("overline", ["o"])]

def attribute? (word : String) : Option String :=
  (attributeWords.find? fun (name, short) => name = word || short.contains word).map (·.1)

def colorNames : List String := Blank.words
  "black red green yellow blue magenta cyan white bright_black bright_red bright_green
    bright_yellow bright_blue bright_magenta bright_cyan bright_white grey0 gray0 navy_blue
    dark_blue blue3 blue1 dark_green deep_sky_blue4 dodger_blue3 dodger_blue2 green4
    spring_green4 turquoise4 deep_sky_blue3 dodger_blue1 green3 spring_green3 dark_cyan
    light_sea_green deep_sky_blue2 deep_sky_blue1 spring_green2 cyan3 dark_turquoise turquoise2
    green1 spring_green1 medium_spring_green cyan2 cyan1 dark_red deep_pink4 purple4 purple3
    blue_violet orange4 grey37 gray37 medium_purple4 slate_blue3 royal_blue1 chartreuse4
    dark_sea_green4 pale_turquoise4 steel_blue steel_blue3 cornflower_blue chartreuse3
    cadet_blue sky_blue3 steel_blue1 pale_green3 sea_green3 aquamarine3 medium_turquoise
    chartreuse2 sea_green2 sea_green1 aquamarine1 dark_slate_gray2 dark_magenta dark_violet
    purple light_pink4 plum4 medium_purple3 slate_blue1 yellow4 wheat4 grey53 gray53
    light_slate_grey light_slate_gray medium_purple light_slate_blue dark_olive_green3
    dark_sea_green light_sky_blue3 sky_blue2 dark_sea_green3 dark_slate_gray3 sky_blue1
    chartreuse1 light_green pale_green1 dark_slate_gray1 red3 medium_violet_red magenta3
    dark_orange3 indian_red hot_pink3 medium_orchid3 medium_orchid medium_purple2
    dark_goldenrod light_salmon3 rosy_brown grey63 gray63 medium_purple1 gold3 dark_khaki
    navajo_white3 grey69 gray69 light_steel_blue3 light_steel_blue yellow3 dark_sea_green2
    light_cyan3 light_sky_blue1 green_yellow dark_olive_green2 dark_sea_green1 pale_turquoise1
    deep_pink3 magenta2 hot_pink2 orchid medium_orchid1 orange3 light_pink3 pink3 plum3 violet
    light_goldenrod3 tan misty_rose3 thistle3 plum2 khaki3 light_goldenrod2 light_yellow3
    grey84 gray84 light_steel_blue1 yellow2 dark_olive_green1 honeydew2 light_cyan1 red1
    deep_pink2 deep_pink1 magenta1 orange_red1 indian_red1 hot_pink dark_orange salmon1
    light_coral pale_violet_red1 orchid2 orchid1 orange1 sandy_brown light_salmon1 light_pink1
    pink1 plum1 gold1 navajo_white1 misty_rose1 thistle1 yellow1 light_goldenrod1 khaki1 wheat1
    cornsilk1 grey100 gray100 grey3 gray3 grey7 gray7 grey11 gray11 grey15 gray15 grey19 gray19
    grey23 gray23 grey27 gray27 grey30 gray30 grey35 gray35 grey39 gray39 grey42 gray42 grey46
    gray46 grey50 gray50 grey54 gray54 grey58 gray58 grey62 gray62 grey66 gray66 grey70 gray70
    grey74 gray74 grey78 gray78 grey82 gray82 grey85 gray85 grey89 gray89 grey93 gray93".toList

/-- Why words are no style. -/
inductive StyleFault
  | noStyle
  /-- A component of a color is empty. -/
  | noNumber
  deriving DecidableEq

/-- What stands between an opening word and a closing bracket. -/
def between? (opening : String) (cs : List Char) : Option (List Char) := do
  let rest ← Text.after? opening.toList cs
  guard (rest.getLast? = some ')')
  some rest.dropLast

def isColor (parts : List Char) : Except StyleFault Bool := do
  let components := Text.splitOn ',' parts
  if components.length ≠ 3 then pure false
  else
    let numbers ← components.mapM fun cs =>
      match Numeral.int? cs with
      | some n => pure n
      | none => throw .noNumber
    pure (numbers.all (· ≤ 255))

def color (word : String) : Except StyleFault String := do
  let name := Small.text word
  let cs := name.toList
  let isHex := match cs with
    | '#' :: digits => digits.length = 6 && digits.all fun c => c.isDigit || ('a' ≤ c && c ≤ 'f')
    | _ => false
  let isNumbered := (between? "color(" cs).any fun digits =>
    1 ≤ digits.length && digits.length ≤ 3 && digits.all Char.isDigit
      && (Numeral.int? digits).any (· ≤ 255)
  if name = "default" || colorNames.contains name || isHex || isNumbered then pure name
  else
    match between? "rgb(" cs with
    | some parts =>
      if !parts.isEmpty && parts.all (fun c => Digit.isDigit c || c = ',') && (← isColor parts) then
        pure name
      else throw .noStyle
    | none => throw .noStyle

structure Style where
  /-- The attributes that are set, and whether they are on. -/
  attributes : List (String × Bool) := []
  color : Option String := none
  background : Option String := none
  link : Option String := none

namespace Style

def setAttribute (s : Style) (name : String) (on : Bool) : Style :=
  { s with attributes := (name, on) :: s.attributes }

def ofWords (s : Style) : List String → Except StyleFault Style
  | [] => .ok s
  | word :: words => do
    let small := Small.text word
    match small, words with
    | "on", next :: words => ofWords { s with background := some (← Console.color next) } words
    | "link", next :: words => ofWords { s with link := some next } words
    | "not", next :: words =>
      match attribute? next with
      | some name => ofWords (s.setAttribute name false) words
      | none => throw .noStyle
    | "on", [] | "link", [] | "not", [] => throw .noStyle
    | small, words =>
      match attribute? small with
      | some name => ofWords (s.setAttribute name true) words
      | none => ofWords { s with color := some (← Console.color small) } words

def words (s : Style) : List String :=
  let attributes := attributeWords.filterMap fun (name, _) =>
    (s.attributes.lookup name).map fun on => if on then name else "not " ++ name
  attributes ++ s.color.toList ++ (s.background.toList.flatMap fun c => ["on", c])
    ++ s.link.toList.flatMap fun l => ["link", l]

/-- The canonical text of a style. What is no style stands for itself, in small letters. -/
def canonical (definition : List Char) : Except StyleFault String :=
  let trimmed := Blank.strip definition
  match ofWords {} (Blank.words trimmed) with
  | .ok s => .ok (if s.words.isEmpty then "none" else " ".intercalate s.words)
  | .error .noStyle => .ok (Small.text (String.ofList trimmed))
  | .error .noNumber => .error .noNumber

end Style
end AtomicCss.Console

/-!
# The fixed vocabulary of design tokens

Interaction states, style properties, element sizes and viewport breakpoints, with the words that
stand for them in files and in style keys.
-/
namespace AtomicCss

def named? {α : Type} (all : List α) (name : α → String) (s : String) : Option α :=
  all.find? fun a => name a == s

inductive InteractionState
  | rest | hover | pressed | focus | disabled | readOnly | selected
  deriving DecidableEq

namespace InteractionState

def all : List InteractionState := [rest, hover, pressed, focus, disabled, readOnly, selected]

def name : InteractionState → String
  | rest => "rest"
  | hover => "hover"
  | pressed => "pressed"
  | focus => "focus"
  | disabled => "disabled"
  | readOnly => "readOnly"
  | selected => "selected"

def ofName? (s : String) : Option InteractionState := named? all name s

def inPalette : List InteractionState := [rest, hover, pressed, focus, selected, disabled, readOnly]

/-- The states an effect is walked in, before those below `selected`. -/
def inEffect : List InteractionState := [rest, hover, pressed, focus, disabled, readOnly]

/-- The states that may stand below `selected`. -/
def control : List InteractionState := [rest, hover, pressed, focus]

end InteractionState

def selectedLabel (s : InteractionState) : String := "selected:" ++ s.name

def isSelectedLabel (label : String) : Bool := label == "selected" || label.startsWith "selected:"

/-- The roles a palette is expected to color. -/
def standardRoles : List String :=
  ["primary", "secondary", "redLike", "yellowLike", "greenLike", "neutral"]

/-- The two tone tracks of a color: soft for tinted backgrounds, solid for fills and text. -/
inductive Track
  | soft | solid
  deriving DecidableEq

namespace Track

def all : List Track := [soft, solid]

def name : Track → String
  | soft => "soft"
  | solid => "solid"

end Track

inductive ColorProperty
  | boxColor | textColor | borderColor
  deriving DecidableEq

namespace ColorProperty

def all : List ColorProperty := [textColor, boxColor, borderColor]

def name : ColorProperty → String
  | boxColor => "boxColor"
  | textColor => "textColor"
  | borderColor => "borderColor"

def ofName? (s : String) : Option ColorProperty := named? all name s

def css : ColorProperty → String
  | boxColor => "background-color"
  | textColor => "color"
  | borderColor => "border-color"

end ColorProperty

inductive ScaleProperty
  | borderRadius | borderWidth | boxHeight | boxWidth
  | margin | marginTop | marginRight | marginBottom | marginLeft
  | padding | paddingTop | paddingRight | paddingBottom | paddingLeft
  | textHeight | textSize
  deriving DecidableEq

namespace ScaleProperty

def all : List ScaleProperty :=
  [borderRadius, borderWidth, boxHeight, boxWidth, margin, marginTop, marginRight, marginBottom,
    marginLeft, padding, paddingTop, paddingRight, paddingBottom, paddingLeft, textHeight, textSize]

def name : ScaleProperty → String
  | borderRadius => "borderRadius"
  | borderWidth => "borderWidth"
  | boxHeight => "boxHeight"
  | boxWidth => "boxWidth"
  | margin => "margin"
  | marginTop => "marginTop"
  | marginRight => "marginRight"
  | marginBottom => "marginBottom"
  | marginLeft => "marginLeft"
  | padding => "padding"
  | paddingTop => "paddingTop"
  | paddingRight => "paddingRight"
  | paddingBottom => "paddingBottom"
  | paddingLeft => "paddingLeft"
  | textHeight => "textHeight"
  | textSize => "textSize"

def ofName? (s : String) : Option ScaleProperty := named? all name s

def css : ScaleProperty → String
  | borderRadius => "border-radius"
  | borderWidth => "border-width"
  | boxHeight => "height"
  | boxWidth => "width"
  | margin => "margin"
  | marginTop => "margin-top"
  | marginRight => "margin-right"
  | marginBottom => "margin-bottom"
  | marginLeft => "margin-left"
  | padding => "padding"
  | paddingTop => "padding-top"
  | paddingRight => "padding-right"
  | paddingBottom => "padding-bottom"
  | paddingLeft => "padding-left"
  | textHeight => "line-height"
  | textSize => "font-size"

end ScaleProperty

inductive DecorationProperty
  | textFont | textItalic | textWeight | textLineType | textAlign | borderStyle
  deriving DecidableEq

namespace DecorationProperty

def all : List DecorationProperty :=
  [textFont, textItalic, textWeight, textLineType, textAlign, borderStyle]

def name : DecorationProperty → String
  | textFont => "textFont"
  | textItalic => "textItalic"
  | textWeight => "textWeight"
  | textLineType => "textLineType"
  | textAlign => "textAlign"
  | borderStyle => "borderStyle"

def css : DecorationProperty → String
  | textFont => "font-family"
  | textItalic => "font-style"
  | textWeight => "font-weight"
  | textLineType => "text-decoration"
  | textAlign => "text-align"
  | borderStyle => "border-style"

/-- The words a decoration may have and the CSS values they stand for. A font stack is no word. -/
def words : DecorationProperty → List (String × String)
  | textFont => []
  | textItalic => [("true", "italic"), ("false", "normal")]
  | textWeight =>
    [("thin", "100"), ("extraLight", "200"), ("light", "300"), ("normal", "400"),
      ("medium", "500"), ("semiBold", "600"), ("bold", "700"), ("extraBold", "800"),
      ("black", "900")]
  | textLineType => [("none", "none"), ("underline", "underline"), ("lineThrough", "line-through")]
  | textAlign =>
    [("left", "left"), ("center", "center"), ("right", "right"), ("justify", "justify")]
  | borderStyle =>
    [("none", "none"), ("dotted", "dotted"), ("dashed", "dashed"), ("solid", "solid")]

end DecorationProperty

/-- The size token for every size. -/
def allSizes : String := "s:all"

/-- The breakpoint token for every width. -/
def allBreakpoints : String := "bp:all"

/-- The sizes an element may have, smallest first. -/
def elementSizes : List String :=
  ["s:sm:5", "s:sm:4", "s:sm:3", "s:sm:2", "s:sm:1", "s:md:1", "s:lg:1", "s:lg:2", "s:lg:3",
    "s:lg:4", "s:lg:5"]

def isSizeToken (token : String) : Bool := token == allSizes || elementSizes.contains token

/-- The standard breakpoints with the least viewport width of each, in pixels. -/
def standardBreakpoints : List (String × Int) :=
  [("bp:all", 0), ("bp:sm:1", 320), ("bp:sm:2", 360), ("bp:sm:3", 400), ("bp:md:1", 568),
    ("bp:md:2", 768), ("bp:md:3", 1024), ("bp:lg:1", 1152), ("bp:lg:2", 1312), ("bp:lg:3", 1792),
    ("bp:lg:4", 2432)]

end AtomicCss

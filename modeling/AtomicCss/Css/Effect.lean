import AtomicCss.Color.Hsla
import AtomicCss.Css.Length
import AtomicCss.Css.Rule
import AtomicCss.Json.Reader
import AtomicCss.Text.Word

/-!
# Rules of effects

A shadow key holds offsets, blur and color in brackets; its rule asks for the gate class that
switches shadows on. A border-radius key holds one length.
-/
namespace AtomicCss.Rule

def dropFinalBreak (cs : List Char) : List Char :=
  match cs.reverse with
  | '\n' :: rest => rest.reverse
  | _ => cs

def dropLast? (last : Char) (cs : List Char) : Option (List Char) :=
  match cs.reverse with
  | c :: rest => if c = last then some rest.reverse else none
  | [] => none

/-- The state of a shadow key and what follows the opening bracket of its value. -/
def shadowHead? (key : List Char) : Option (List Char × List Char) := do
  let cs ← Text.after? "shadow".toList key
  match Text.after? "__[".toList cs with
  | some rest => some ([], rest)
  | none =>
    let cs ← Text.after? "--".toList cs
    let isPart (c : Char) := Word.isWord c || c = ':'
    let state ← dropLast? '_' (← dropLast? '_' (cs.takeWhile isPart))
    let rest ← Text.after? ['['] (cs.dropWhile isPart)
    if state.isEmpty then none else some (state, rest)

/-- The state and the bracketed value of a shadow key. -/
def shadowParts? (key : String) : Option (String × List Char) := do
  let (state, rest) ← shadowHead? key.toList
  let body ← dropLast? ']' (dropFinalBreak rest)
  if body.contains '\n' then none else some (String.ofList state, body)

/-- The characters up to a comma, an optional minus and some digits and points, and the rest. -/
def offset? (cs : List Char) : Option (List Char × List Char) := do
  let (minus, cs) := match cs with
    | '-' :: cs => (['-'], cs)
    | cs => ([], cs)
  let isPart (c : Char) := Digit.isDigit c || c = '.'
  let digits := cs.takeWhile isPart
  let rest ← Text.after? [','] (cs.dropWhile isPart)
  if digits.isEmpty then none else some (minus ++ digits, rest)

/-- The offsets, the blur and the text of the color. -/
def shadowValue? (cs : List Char) : Option (Float × Float × Float × List Char) := do
  let (x, cs) ← offset? cs
  let (y, cs) ← offset? cs
  let (blur, cs) ← offset? cs
  some (← Numeral.float? x, ← Numeral.float? y, ← Numeral.float? blur, cs)

/-- The color of a JSON text. Whatever is wrong with it is one error, but an overflow escapes. -/
def colorOfJson (text : List Char) (invalid : RuleError) : Except RuleError String :=
  match Json.readChars text with
  | .error _ => .error invalid
  | .ok v =>
    match Color.hexOfHsla v with
    | .ok hex => .ok hex
    | .error (.number .overflow) => .error (.number .overflow)
    | .error _ => .error invalid

def pixels (x : Float) : String := Length.px (Number.float x)

def ofShadow (force : Bool) (key className : String) : Except RuleError Rule := do
  let (state, value) ← given (shadowParts? key) (.property "shadow" key)
  let states ← ActiveState.ofTokens key "shadow" false (StyleKey.stateTokens state)
  let (x, y, blur, color) ←
    given (shadowValue? value) (.value "shadow" (String.ofList value) key)
  let color ← colorOfJson (Blank.strip color) .shadowColor
  let selectors ← Selector.ofStates className (some Selector.shadowGate) false force states
  let css := " ".intercalate [pixels x, pixels y, pixels blur, color]
  pure ⟨bodyOf selectors "box-shadow" css, none⟩

/-- A finite number, possibly in brackets. -/
def radius? (value : String) : Option Float := do
  let raw := Blank.strip value.toList
  let inner := ((Text.after? ['['] raw).bind (dropLast? ']')).getD raw
  (Numeral.float? inner).filter Float.isFinite

def ofRadius (o : RuleOptions) (key className : String) : Except RuleError Rule := do
  let k ← (StyleKey.decode key).mapError .undecodable
  require (k.property == ScaleProperty.borderRadius.name)
    (.property ScaleProperty.borderRadius.name key)
  let x ← given (radius? k.value) .numberExpected
  requireSize isSizeToken (Location.known k.size) key
  let states ← ActiveState.ofTokens key "style" k.isRef k.stateTokens
  let selectors ← Selector.ofStates className none k.isRef o.force states
  let media ← mediaQuery o.queries k.breakpoint
  pure ⟨bodyOf selectors ScaleProperty.borderRadius.css (pixels x), media⟩

end AtomicCss.Rule

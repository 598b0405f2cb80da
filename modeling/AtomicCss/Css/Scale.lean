import AtomicCss.Css.Length
import AtomicCss.Css.Rule
import AtomicCss.Number.Numeral

/-!
# Rules of scales

A scale key holds one length. Its rule stands on the bare class, since the class map chooses the
classes of a size; a breakpoint puts it under a media query. Scales do not vary by state.
-/
namespace AtomicCss.Rule

/-- The properties of scale keys. A border radius belongs to the effects. -/
def scaleProperty? (name : String) : Option ScaleProperty :=
  (ScaleProperty.ofName? name).filter (· != .borderRadius)

/-- The CSS length of a scale: text sizes are relative to the root. -/
def scaleLength (p : ScaleProperty) (x : Float) : Except NumberError String :=
  match p with
  | .textSize => Length.rem (Number.float x) Length.rootPixels
  | _ => .ok (Length.px (Number.float x))

def ofScale (queries : MediaQueries) (key className : String) : Except RuleError Rule := do
  require (Text.occurs "__".toList key.toList) (.missingValue key)
  let k ← (StyleKey.decode key).mapError .undecodable
  let p ← given (scaleProperty? k.property) (.scaleProperty key)
  require (k.stateTokens.isEmpty && !k.isRef)
    (.state ((Location.known k.rawState).getD InteractionState.rest.name) "scale" key)
  requireSize elementSizes.contains k.size key
  require (!k.value.isEmpty) (.missingValue key)
  let x ← given ((Numeral.float? k.value.toList).filter Float.isFinite) (.value p.name k.value key)
  let css ← (scaleLength p x).mapError .number
  let media ← mediaQuery queries k.breakpoint
  pure ⟨bodyOf (bare className) p.css css, media⟩

end AtomicCss.Rule

import AtomicCss.Css.Effect

/-!
# Rules of palette colors

The value of a color key is the bracketed list at its very end.
-/
namespace AtomicCss.Rule

/-- What stands after the last of some characters. -/
def afterLast (sep : Char) (cs : List Char) : List Char :=
  (cs.reverse.takeWhile (· ≠ sep)).reverse

/-- The inside of the brackets that end a text: it holds no closing bracket, and reaches back as
far as an opening one allows. -/
def bracketed? (key : List Char) : Option (List Char) := do
  let cs ← dropLast? ']' (dropFinalBreak key)
  let inside ← Text.after? ['['] ((afterLast ']' cs).dropWhile (· ≠ '['))
  if inside.isEmpty then none else some inside

def ofColor (force : Bool) (key className : String) : Except RuleError Rule := do
  let inside ← given (bracketed? key.toList) .bracketsExpected
  let k ← (StyleKey.decode key).mapError .undecodable
  let p ← given (ColorProperty.ofName? k.property)
    (.property ("|".intercalate (ColorProperty.all.map ColorProperty.name)) key)
  let color ← colorOfJson ('[' :: inside ++ [']']) .bracketsExpected
  let states ← ActiveState.ofTokens key "style" k.isRef k.stateTokens
  let selectors ← Selector.ofStates className none k.isRef force states
  pure ⟨bodyOf selectors p.css color, none⟩

end AtomicCss.Rule

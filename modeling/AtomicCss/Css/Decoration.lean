import AtomicCss.Css.Rule
import AtomicCss.Json.Reader

/-!
# Rules of decorations

A decoration key is a property and a value, a word of the property's table or, for fonts, a JSON
list of family names. It gives one rule on the bare class.
-/
namespace AtomicCss.Rule

/-- The value of a decoration key. A second separator is refused. -/
def decorationValue (property key : String) : Except RuleError String := do
  let (found, value) := (StyleKey.cutString "__" key).getD (key, "")
  require (found == property) (.property property key)
  require (Text.occurs "__".toList key.toList && !Text.occurs "__".toList value.toList)
    (.value property value key)
  pure value

/-- Characters that a family name may have without quotes. -/
def isPlainFamilyChar (c : Char) : Bool := c.isAlphanum || c = '-'

/-- A font family as CSS. -/
def familyText (name : String) : String :=
  if name.toList.all isPlainFamilyChar then name
  else
    let escaped := name.toList.flatMap fun c => if c = '"' then ['\\', '"'] else [c]
    String.ofList ('"' :: escaped ++ ['"'])

/-- The family names of a list of texts. -/
def families? : Value → Option (List String)
  | .list (v :: items) => (v :: items).mapM Value.text?
  | _ => none

def decorationCss (property : DecorationProperty) (value key : String) : Except RuleError String :=
  let unsupported := RuleError.value property.name value key
  match property with
  | .textFont =>
    match Json.read value with
    | .error .malformed => .error unsupported
    | .error .tooManyDigits => .error (.number .notANumber)
    | .ok v =>
      match families? v with
      | some names => .ok (", ".intercalate (names.map familyText))
      | none => .error unsupported
  | _ =>
    match Dict.get? property.words value with
    | some css => .ok css
    | none => .error unsupported

def ofDecoration (property : DecorationProperty) (key className : String) :
    Except RuleError Rule := do
  let value ← decorationValue property.name key
  let css ← decorationCss property value key
  pure ⟨bodyOf (bare className) property.css css, none⟩

end AtomicCss.Rule

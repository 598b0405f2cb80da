import Std.Data.HashMap
import AtomicCss.Text.Blank
import AtomicCss.Text.Cut
import AtomicCss.Text.EmojiNames
import AtomicCss.Text.Small

/-!
# Pictures by name

A name between colons stands for a picture, in capitals as well as in small letters. After the name
may stand whether the picture is shown as text or in color. Names that are not known stay as they
are.
-/
namespace AtomicCss.Emoji

def pictures : Std.HashMap String String :=
  .ofList ((Blank.words entries.toList).filterMap fun entry =>
    match entry.splitOn "=" with
    | [name, picture] => some (name, picture)
    | _ => none)

/-- The ways to show a picture, with the marks for them. -/
def variants : List (String × Char) := [("-emoji:", '\ufe0f'), ("-text:", '\ufe0e')]

/-- A name up to its closing colon and the way to show its picture, and how many characters both
take. There is no white space in a name. -/
def name? (name : List Char) : List Char → Option (String × Option Char × Nat)
  | [] => none
  | c :: cs =>
    let found (mark : Option Char) (more : Nat) : Option (String × Option Char × Nat) :=
      some (String.ofList name.reverse, mark, name.length + more)
    match variants.find? fun (ending, _) => (Text.after? ending.toList (c :: cs)).isSome with
    | some (ending, mark) => found (some mark) ending.length
    | none =>
      if c = ':' then found none 1
      else if Blank.isBlank c then none
      else name? (c :: name) cs

def picture? (name : String) (mark : Option Char) : Option (List Char) :=
  (pictures[Small.text name]?).map fun picture => picture.toList ++ mark.toList

/-- Shows the pictures in a text of which the first characters are kept or dropped. -/
def showFrom (kept dropped : Nat) : List Char → List Char
  | [] => []
  | c :: cs =>
    match kept, dropped with
    | n + 1, d => c :: showFrom n d cs
    | 0, d + 1 => showFrom 0 d cs
    | 0, 0 =>
      if c ≠ ':' then c :: showFrom 0 0 cs
      else
        match name? [] cs with
        | none => c :: showFrom 0 0 cs
        | some (name, mark, length) =>
          match picture? name mark with
          | some picture => picture ++ showFrom 0 length cs
          | none => c :: showFrom length 0 cs

def render (cs : List Char) : List Char := showFrom 0 0 cs

end AtomicCss.Emoji

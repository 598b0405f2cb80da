import AtomicCss.Console.Literal
import AtomicCss.Console.Style
import AtomicCss.Text.Emoji

/-!
# Style tags in messages

Messages may hold style tags in brackets, which are not shown: a tag begins with a small letter or
one of a few marks. Tags also count in what a message quotes. A backslash before a tag shows it as
it is. A tag that begins with a slash closes the one of its style, or the last one if it names none.
The names of pictures between tags become pictures.
-/
namespace AtomicCss.Console.Markup

def styled (style s : String) : String := "[" ++ style ++ "]" ++ s ++ "[/" ++ style ++ "]"

inductive Fault
  /-- A tag closes what is not open, or the parameters of an action are no literal. -/
  | tag
  /-- A component of a color is empty. -/
  | number
  deriving DecidableEq

/-- The words of a tag, and its parameters after an equals sign. -/
structure Tag where
  name : List Char
  parameters : Option (List Char) := none

def Tag.ofBody (body : List Char) : Tag :=
  match Text.cut ['='] body with
  | some (name, parameters) => ⟨name, some parameters⟩
  | none => ⟨body, none⟩

def opensTag (c : Char) : Bool := ('a' ≤ c && c ≤ 'z') || c = '#' || c = '/' || c = '@'

/-- What stands between the brackets of the tag that begins after a bracket, if one does. -/
def tag? (cs : List Char) : Option (List Char) :=
  let body := cs.takeWhile fun c => c ≠ '[' && c ≠ ']'
  if (body.head?.map opensTag).getD false && cs[body.length]? = some ']' then some body else none

inductive Piece
  | text (cs : List Char)
  | tag (t : Tag)

def slashes (n : Nat) : List Char := List.replicate n '\\'

/-- The pieces of a message, given the text since the last tag, last character first, how many
characters belong to the tag just read, and the number of backslashes just before. Two backslashes
before a tag show one, and one before another bracket shows none. -/
def pieces (text : List Char) (skipped escapes : Nat) : List Char → List Piece
  | [] => [.text (text.reverse ++ slashes escapes)]
  | c :: rest =>
    match skipped with
    | n + 1 => pieces [] n 0 rest
    | 0 =>
      if c = '\\' then pieces text 0 (escapes + 1) rest
      else if c = '[' then
        match tag? rest with
        | some body =>
          [.text text.reverse, .text (slashes (escapes / 2)),
              if escapes % 2 = 1 then .text (c :: body ++ [']']) else .tag (.ofBody body)]
            ++ pieces [] (body.length + 1) 0 rest
        | none => pieces (c :: slashes (escapes - 1) ++ text) 0 0 rest
      else pieces (c :: slashes escapes ++ text) 0 0 rest

/-- A tag that is open, by the canonical text of its style. -/
structure OpenTag where
  style : String
  parameters : Option (List Char)

def canonical (name : List Char) : Except Fault String :=
  (Style.canonical name).mapError fun _ => .number

def Tag.opened (t : Tag) : Except Fault OpenTag := do
  pure ⟨← canonical t.name, t.parameters⟩

def OpenTag.isAction (t : OpenTag) : Bool := t.style.toList.head? = some '@'

def OpenTag.words (t : OpenTag) : List String :=
  Blank.words (t.style.toList ++ ((t.parameters.map (' ' :: ·)).getD []))

/-- The values that parameters write: what stands between parentheses after the name of an action,
or all. -/
def argumentsOf (parameters : List Char) : List Char :=
  let rest := parameters.dropWhile fun c => Word.isWord c || c = '.'
  if rest.isEmpty then ['(', ')']
  else if rest.head? = some '(' ∧ rest.getLast? = some ')' ∧ !rest.contains '\n' then rest
  else parameters

/-- Whether the parameters of an action can be read. -/
def OpenTag.isReadable (t : OpenTag) : Bool :=
  !t.isAction ||
    match t.parameters with
    | none | some [] => true
    | some cs => Literal.isLiteral (argumentsOf (Blank.strip cs))

/-- The tag that a closing tag closes, and the others. The last opened tag is first. -/
def close (t : Tag) (opened : List OpenTag) : Except Fault (OpenTag × List OpenTag) := do
  let name := Blank.strip (t.name.drop 1)
  let index ←
    if name.isEmpty then pure (if opened.isEmpty then none else some 0)
    else do
      let style ← canonical name
      pure (opened.findIdx? (·.style = style))
  match index with
  | none => throw .tag
  | some i =>
    match opened[i]? with
    | none => throw .tag
    | some o => if o.isReadable then pure (o, opened.eraseIdx i) else throw .tag

/-- Control characters that the screen does not show. -/
def isHidden (c : Char) : Bool := ['\x07', '\x08', '\x0b', '\x0c', '\r'].contains c

def shownText (cs : List Char) : List Char := (Emoji.render cs).filter fun c => !isHidden c

/-- The text of a message and the tags whose styles it is shown in. -/
structure Reading where
  text : List Char := []
  tags : List OpenTag := []

def read (opened : List OpenTag) : List Piece → Except Fault Reading
  | [] => .ok ⟨[], opened⟩
  | .text cs :: rest => do
    let r ← read opened rest
    pure { r with text := shownText cs ++ r.text }
  | .tag t :: rest => do
    if t.name.head? = some '/' then
      let (closed, opened) ← close t opened
      let r ← read opened rest
      pure { r with tags := if closed.isAction then r.tags else closed :: r.tags }
    else read ((← t.opened) :: opened) rest

def parse (s : String) : Except Fault Reading := read [] (pieces [] 0 0 s.toList)

/-- Whether the style of a tag can be told. A tag without a style has no effect. -/
def OpenTag.isShowable (t : OpenTag) : Bool :=
  match Style.ofWords {} t.words with
  | .error .noNumber => false
  | _ => true

def shown (s : String) : Except Fault String := do
  let r ← parse s
  if r.tags.all OpenTag.isShowable then pure (String.ofList r.text) else throw .number

end AtomicCss.Console.Markup

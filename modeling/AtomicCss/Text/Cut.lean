/-!
# Cutting text at a separator

`cut sep s` splits `s` at the first place where `sep` occurs and drops that occurrence. Text is a
list of characters here, so that the laws are plain inductions.
-/
namespace AtomicCss.Text

/-- What follows `front`, if the text starts with it. -/
def after? : (front s : List Char) → Option (List Char)
  | [], s => some s
  | _ :: _, [] => none
  | f :: front, c :: s => if f = c then after? front s else none

/-- The text before and after the first occurrence of a separator. -/
def cut (sep : List Char) : List Char → Option (List Char × List Char)
  | [] => if sep.isEmpty then some ([], []) else none
  | c :: s =>
    match after? sep (c :: s) with
    | some rest => some ([], rest)
    | none => (cut sep s).map fun (front, rest) => (c :: front, rest)

/-- Whether a text occurs within another. -/
def occurs (sep s : List Char) : Bool := (cut sep s).isSome

/-- The pieces between the occurrences of a character, one more than there are occurrences. -/
def splitOn (sep : Char) : List Char → List (List Char)
  | [] => [[]]
  | c :: s =>
    match splitOn sep s with
    | [] => [[c]]
    | piece :: pieces => if c = sep then [] :: piece :: pieces else (c :: piece) :: pieces

end AtomicCss.Text

/-!
# Line ends

Text read from a file has line feeds for all of its line ends.
-/
namespace AtomicCss.Text

/-- Replaces carriage returns, and carriage returns with their line feeds, by line feeds. -/
def unifyBreaks : List Char → List Char
  | [] => []
  | '\r' :: '\n' :: cs => '\n' :: unifyBreaks cs
  | c :: cs => (if c = '\r' then '\n' else c) :: unifyBreaks cs

/-- The text of a file, line ends unified. -/
def ofFile (s : String) : String := String.ofList (unifyBreaks s.toList)

end AtomicCss.Text

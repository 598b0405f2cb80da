import AtomicCss.Css.Selector
import AtomicCss.Dict

/-!
# Rules and media queries

A rule is a body, selectors with one declaration, and possibly the media query it sits in. Runs of
neighbouring rules under one query may be folded into a block, which moves no rule.
-/
namespace AtomicCss

structure Rule where
  body : String
  media : Option String := none
  deriving DecidableEq

/-- Least viewport widths by breakpoint token. -/
abbrev BreakpointTable := Dict Int

/-- Media queries by breakpoint token. There is none where the width is too long to be written. -/
abbrev MediaQueries := Dict (Option String)

def MediaQueries.fromWidth (width : String) : String := "(min-width: " ++ width ++ "px)"

def BreakpointTable.queries (t : BreakpointTable) : MediaQueries :=
  t.map fun (token, width) => (token, (Number.intText? width).map MediaQueries.fromWidth)

/-- What shapes the rules of all keys: whether forced states are wanted, and the media queries. -/
structure RuleOptions where
  force : Bool
  queries : MediaQueries := BreakpointTable.queries standardBreakpoints

namespace Rule

def text (r : Rule) : String :=
  match r.media with
  | some query => "@media " ++ query ++ " \x7b " ++ r.body ++ " \x7d"
  | none => r.body

def bodyOf (selectors : List Selector) (property value : String) : String :=
  ", ".intercalate (selectors.map Selector.text) ++ " \x7b " ++ property ++ ": " ++ value ++ " \x7d"

def bare (className : String) : List Selector := [⟨none, [.ofClass className]⟩]

def mediaQuery (queries : MediaQueries) (breakpoint : Option String) :
    Except RuleError (Option String) :=
  match Location.known breakpoint with
  | none => .ok none
  | some token =>
    match queries.get? token with
    | some (some query) => .ok (some query)
    | some none => .error (.number .notANumber)
    | none => .error (.breakpoint token)

/-- Neighbouring rules under one query, as the query and the bodies. -/
def runs : List Rule → List (Option String × List String)
  | [] => []
  | r :: rules =>
    match runs rules with
    | [] => [(r.media, [r.body])]
    | (query, bodies) :: rest =>
      if r.media = query then (query, r.body :: bodies) :: rest
      else (r.media, [r.body]) :: (query, bodies) :: rest

/-- The blocks of a run. Several rules under a query stand on lines of their own. -/
def blocks : Option String × List String → List String
  | (none, bodies) => bodies
  | (some query, [body]) => [text ⟨body, some query⟩]
  | (some query, bodies) =>
    ["@media " ++ query ++ " \x7b\n" ++ "\n".intercalate (bodies.map ("  " ++ ·)) ++ "\n\x7d"]

/-- Folds neighbouring rules with the same media query. -/
def combine (rules : List Rule) : List String := (runs rules).flatMap blocks

end Rule
end AtomicCss

import AtomicCss.Text.Cut

/-!
# Paths

A path is a root, which relative paths lack, and its parts. Empty parts and `.` are dropped when a
path is read; `..` is kept, since what it means depends on the files there are.
-/
namespace AtomicCss

structure Path where
  root : String := ""
  parts : List String
  deriving DecidableEq

namespace Path

/-- The root a text starts with. Two slashes, but not three, are a root of their own. -/
def rootOf : List Char → String
  | '/' :: '/' :: '/' :: _ => "/"
  | '/' :: '/' :: _ => "//"
  | '/' :: _ => "/"
  | _ => ""

def ofText (s : String) : Path :=
  let pieces := (Text.splitOn '/' s.toList).map String.ofList
  ⟨rootOf s.toList, pieces.filter fun p => !p.isEmpty && p != "."⟩

def isAbsolute (p : Path) : Bool := !p.root.isEmpty

def text (p : Path) : String :=
  let s := p.root ++ "/".intercalate p.parts
  if s.isEmpty then "." else s

/-- A path seen from another. -/
def join (base p : Path) : Path := if p.isAbsolute then p else ⟨base.root, base.parts ++ p.parts⟩

def child (base : Path) (s : String) : Path := base.join (ofText s)

def name (p : Path) : String := p.parts.getLast?.getD ""

/-- The directory a path lies in. -/
def parent (p : Path) : Path := { p with parts := p.parts.dropLast }

/-- The ending of the name, from its last point on. A point that begins or ends the name opens
none. -/
def suffix (p : Path) : String :=
  let cs := p.name.toList
  let ending := (cs.reverse.takeWhile (· ≠ '.')).reverse
  let front := cs.take (cs.length - ending.length - 1)
  if ending.isEmpty || front.isEmpty || !cs.contains '.' then "" else String.ofList ('.' :: ending)

/-- Applies `..` parts to what stands before them. -/
def collapse (parts : List String) : List String :=
  parts.foldl (fun done p => if p = ".." then done.dropLast else done ++ [p]) []

end Path
end AtomicCss

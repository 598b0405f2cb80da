import AtomicCss.Files.Path

/-!
# File trees

A file tree holds the directories and text files there are, each at its absolute position. Writing
fails if the way to a file is no directory or the file is one; a failed write changes nothing. Names
hold no NUL and, like whole paths, are not longer than a bound. Symbolic links are not modelled: a
position has one file or directory, which stands at no other.
-/
namespace AtomicCss

inductive FileError
  | missing
  | isDirectory
  | notDirectory
  /-- A directory cannot be made where a file stands. -/
  | occupied
  /-- A name is longer than names may be. -/
  | tooLong
  /-- A name holds a NUL. -/
  | badName
  deriving DecidableEq

inductive Node
  | directory
  | file (text : String)

/-- A position from the root. -/
abbrev Position := List String

structure FileTree where
  nodes : List (Position × Node) := []

namespace FileTree

/-- What stands at a position. The root is always a directory. -/
def nodeAt? (t : FileTree) (p : Position) : Option Node :=
  match p with
  | [] => some .directory
  | _ => (t.nodes.find? fun n => n.1 == p).map (·.2)

def put (t : FileTree) (p : Position) (n : Node) : FileTree :=
  if t.nodes.any fun m => m.1 == p then
    ⟨t.nodes.map fun m => if m.1 == p then (p, n) else m⟩
  else ⟨t.nodes ++ [(p, n)]⟩

/-- The most bytes that a name may have. -/
def nameLimit : Nat := 255

/-- The bytes that no path may have. -/
def pathLimit : Nat := 4096

/-- One step down from a directory. -/
def step (t : FileTree) (below : Position) (part : String) : Except FileError Position :=
  match t.nodeAt? below with
  | none => .error .missing
  | some (.file _) => .error .notDirectory
  | some .directory =>
    if nameLimit < part.utf8ByteSize then .error .tooLong
    else .ok (if part = ".." then below.dropLast else below ++ [part])

/-- Whether files may have the names in a path. -/
def isNamable (p : Path) : Bool := !p.text.toList.contains '\x00'

/-- What is wrong with a path, whatever files there are. -/
def pathFault? (p : Path) : Option FileError :=
  if !isNamable p then some .badName
  else if pathLimit ≤ p.text.utf8ByteSize then some .tooLong
  else none

/-- The position a path leads to, every part but the last being a directory that is there. -/
def locate (t : FileTree) (start : Position) (p : Path) : Except FileError Position :=
  match pathFault? p with
  | some e => .error e
  | none => p.parts.foldlM t.step (if p.isAbsolute then [] else start)

/-- Whether a path leads to a file. Of a path that is too long this cannot be said. -/
def isFile (t : FileTree) (start : Position) (p : Path) : Except FileError Bool :=
  match t.locate start p with
  | .ok position => .ok (t.nodeAt? position matches some (.file _))
  | .error .tooLong => .error .tooLong
  | .error _ => .ok false

def read (t : FileTree) (start : Position) (p : Path) : Except FileError String := do
  let position ← t.locate start p
  match t.nodeAt? position with
  | some (.file text) => .ok text
  | some .directory => .error .isDirectory
  | none => .error .missing

def write (t : FileTree) (start : Position) (p : Path) (text : String) :
    Except FileError FileTree := do
  let position ← t.locate start p
  match t.nodeAt? position, t.nodeAt? position.dropLast with
  | some .directory, _ => .error .isDirectory
  | _, some .directory => .ok (t.put position (.file text))
  | _, some (.file _) => .error .notDirectory
  | _, none => .error .missing

/-- Makes one directory, unless it is there. -/
def makeStep (t : FileTree) (below : Position) (part : String) :
    Except FileError (Position × FileTree) := do
  let position ← t.step below part
  match t.nodeAt? position with
  | some .directory => .ok (position, t)
  | some (.file _) => .error .occupied
  | none => .ok (position, t.put position .directory)

/-- Makes the directories of a path from a position on. -/
def makeFrom (t : FileTree) (below : Position) : List String → FileTree × Option FileError
  | [] => (t, none)
  | part :: parts =>
    match t.makeStep below part with
    | .ok (position, t) => makeFrom t position parts
    | .error .occupied => (t, some (if parts.isEmpty then .occupied else .notDirectory))
    | .error e => (t, some e)

/-- Makes a directory and those it lies in, as far as they are not there. -/
def makeDirectories (t : FileTree) (start : Position) (p : Path) : FileTree × Option FileError :=
  match pathFault? p with
  | some e => (t, some e)
  | none => t.makeFrom (if p.isAbsolute then [] else start) p.parts

/-- Writes files into a directory in turn, and stops at the first failure. What was written before
it stays. -/
def writeAll (t : FileTree) (start : Position) (directory : Path) :
    List (String × String) → FileTree × Option FileError
  | [] => (t, none)
  | (name, text) :: files =>
    match t.write start (directory.child name) text with
    | .ok t => writeAll t start directory files
    | .error e => (t, some e)

def save (t : FileTree) (start : Position) (directory : Path) (files : List (String × String)) :
    FileTree × Option FileError :=
  match t.makeDirectories start directory with
  | (t, some e) => (t, some e)
  | (t, none) => t.writeAll start directory files

def filesBelow (t : FileTree) (p : Position) : List (String × String) :=
  t.nodes.filterMap fun (q, n) =>
    match n with
    | .file text => if p.isPrefixOf q then some ("/".intercalate (q.drop p.length), text) else none
    | .directory => none

end FileTree
end AtomicCss

import AtomicCss.Console.Command

/-!
# The command line

The program reads its words, runs the command on the disk of the machine and prints what the
command gives.
-/
namespace AtomicCss.Console

/-- The failure of an access to the disk of the machine. -/
def fileError : IO.Error → FileError
  | .noFileOrDirectory .. => .missing
  | .alreadyExists .. => .occupied
  | .inappropriateType .. => .isDirectory
  | _ => .notDirectory

def attempt {α : Type} (act : IO α) : IO (Except FileError α) := do
  try
    pure (.ok (← act))
  catch e =>
    pure (.error (fileError e))

/-- Whether a file can be read at a path. A directory can be opened but not read. -/
def isFile (path : Path) : IO (Except FileError Bool) := do
  let opened ← attempt do
    let h ← IO.FS.Handle.mk path.text .read
    let _ ← h.read 1
  pure (.ok opened.toBool)

def saveAll (directory : Path) : List (String × String) → IO (Option FileError)
  | [] => pure none
  | (name, text) :: files => do
    match ← attempt (IO.FS.writeFile (directory.child name).text text) with
    | .ok _ => saveAll directory files
    | .error e => pure (some e)

def machineDisk (here : Path) : Disk IO where
  here := here
  isFile := isFile
  read path := attempt (IO.FS.readFile path.text)
  save directory files := do
    match ← attempt (IO.FS.createDirAll directory.text) with
    | .ok _ => saveAll directory files
    | .error e => pure (some e)

def display (o : Output) : IO Unit :=
  match o with
  | .plain text => IO.println text
  | .line message => IO.println message
  | .problem message => IO.eprintln message
  | .table t => t.lines.forM IO.println

/-- What a wrong command line is answered with. -/
def usage : String :=
  "usage: build [SCHEMA] | inspect [SCHEMA] | tones HEX"

end AtomicCss.Console

open AtomicCss AtomicCss.Console

def main (words : List String) : IO UInt32 := do
  let here := Path.ofText (← IO.currentDir).toString
  let outcome ← Console.run (machineDisk here) words
  outcome.outputs.forM display
  if outcome.exitCode = 2 then IO.eprintln usage
  if outcome.trouble.isSome then IO.eprintln "The command failed."
  pure outcome.exitCode.toUInt32

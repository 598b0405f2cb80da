import AtomicCss.Files.Tree

/-!
# Access to files

The commands reach files through a few operations, which a real disk offers as well as a file tree
held in memory.
-/
namespace AtomicCss

structure Disk (m : Type → Type) where
  /-- The working directory, an absolute path. -/
  here : Path
  isFile : Path → m (Except FileError Bool)
  read : Path → m (Except FileError String)
  /-- Writes files into a directory, which is made if need be, and stops at the first failure. -/
  save : Path → List (String × String) → m (Option FileError)

def FileTree.disk (here : Position) : Disk (StateM FileTree) where
  here := ⟨"/", here⟩
  isFile p := do pure ((← get).isFile here p)
  read p := do pure ((← get).read here p)
  save directory files := fun t =>
    let (t, failure) := t.save here directory files
    (failure, t)

end AtomicCss

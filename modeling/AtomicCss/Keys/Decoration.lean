import AtomicCss.Keys.Error

/-!
# Style keys of decorations

Every flag, number, text or list gives one key; nothing and maps give none.
-/
namespace AtomicCss.Keys

/-- Whether a decoration's value gives a key. -/
def isDecoration : Value → Bool
  | .null | .map _ => false
  | _ => true

def ofDecorations (decorations : Dict Value) : Except CompileError (List String) :=
  (decorations.filter fun (_, v) => isDecoration v).mapM fun (property, value) =>
    encode { property, value }

end AtomicCss.Keys

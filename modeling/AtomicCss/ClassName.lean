import AtomicCss.Dict
import AtomicCss.Number.Basic

/-!
# Class names

Names are the non-empty words over the alphabet in order of length and then alphabet: `a` to `z`,
`aa`, `ab` and so on. Style keys take names in order, so the first keys get the shortest.
-/
namespace AtomicCss.ClassName

def letter (n : Nat) : Char := Char.ofNat ('a'.toNat + n % 26)

/-- The word at an index, counted from zero. -/
def word (n : Nat) : List Char :=
  if n < 26 then [letter n] else word (n / 26 - 1) ++ [letter n]
termination_by n

/-- An index below zero names nothing. -/
inductive IndexError
  | negative (index : Int)

def IndexError.message : IndexError → String
  | negative n => "token index must be >= 0 (got " ++ Number.intText n ++ ")"

/-- The class name at an index. -/
def token : Int → Except IndexError String
  | .ofNat n => .ok (String.ofList (word n))
  | .negSucc n => .error (.negative (.negSucc n))

/-- Names keys by their positions. A key that comes again takes the later name. -/
def assign (keys : List String) : Dict String :=
  .ofList ((keys.zipIdx).map fun (k, n) => (k, String.ofList (word n)))

/-- The name of a key; a key without one stands for itself. -/
def of (names : Dict String) (key : String) : String := names.getD key key

end AtomicCss.ClassName

import AtomicCss.ClassName
import AtomicCss.Keys.Tree

/-!
# Usage of style keys

How often each distinct key occurs, the most used first and keys of equal use in the order of
their text. The order decides which keys get the shortest class names.
-/
namespace AtomicCss.Usage

def count (counts : Dict Nat) (key : String) : Dict Nat :=
  counts.update key fun n => n.getD 0 + 1

/-- More use comes first, and of equal use the lesser text. -/
def before (a b : String × Nat) : Bool :=
  if a.2 = b.2 then decide (a.1 ≤ b.1) else decide (b.2 < a.2)

def ofKeys (keys : List String) : Dict Nat := (keys.foldl count []).mergeSort before

def ofTree (t : KeyTree) : Dict Nat := ofKeys t.keys

def classNames (t : KeyTree) : Dict String := ClassName.assign (ofTree t).keys

end AtomicCss.Usage

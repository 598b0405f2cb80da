/-!
# Ranges of code points

A character property is a sorted table of inclusive, disjoint ranges of code points, searched by
halving.
-/
namespace AtomicCss.CodeRange

/-- Whether `n` lies in one of the ranges with index from `low` on, `count` of them. -/
def search (ranges : Array (Nat × Nat)) (n : Nat) : (low count fuel : Nat) → Bool
  | _, _, 0 => false
  | low, count, fuel + 1 =>
    if count = 0 then false
    else
      let half := count / 2
      match ranges[low + half]? with
      | none => false
      | some (first, last) =>
        if n < first then search ranges n low half fuel
        else if last < n then search ranges n (low + half + 1) (count - half - 1) fuel
        else true

def contains (ranges : Array (Nat × Nat)) (c : Char) : Bool :=
  search ranges c.toNat 0 ranges.size (ranges.size + 1)

end AtomicCss.CodeRange

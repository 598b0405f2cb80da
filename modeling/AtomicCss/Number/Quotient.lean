/-!
# Rounded quotients

The integer nearest to a quotient of integers, halves going up. It is monotone in the numerator
and within half a unit of the quotient.
-/
namespace AtomicCss

/-- The integer nearest to `n / d`, halves going up. -/
def nearestQuotient (n : Int) (d : Nat) : Int := (2 * n + d) / (2 * d)

theorem nearestQuotient_le_nearestQuotient {m n : Int} {d : Nat} (pos : 0 < d) (le : m ≤ n) :
    nearestQuotient m d ≤ nearestQuotient n d :=
  Int.ediv_le_ediv (by omega) (by omega)

theorem le_nearestQuotient_iff {k n : Int} {d : Nat} (pos : 0 < d) :
    k ≤ nearestQuotient n d ↔ k * (2 * d) ≤ 2 * n + d :=
  Int.le_ediv_iff_mul_le (by omega)

theorem nearestQuotient_lt_iff {k n : Int} {d : Nat} (pos : 0 < d) :
    nearestQuotient n d < k ↔ 2 * n + d < k * (2 * d) :=
  Int.ediv_lt_iff_lt_mul (by omega)

end AtomicCss

/-!
# Sets of code points

A large set of code points is the ascending list of the points at which membership changes: a point
belongs to the set when an odd number of boundaries lie at or below it. Membership is decided by
bisection.
-/

namespace ComponentScan.Text

/-- A set of code points, by the boundaries at which membership changes, in ascending order. -/
structure CodePointSet where
  boundaries : Array Nat

namespace CodePointSet

/-- The number of boundaries at or below `n`, known to lie between `lo` and `hi`. Every step halves
the interval, so the number of boundaries is more than enough `fuel`. -/
def rank (s : CodePointSet) (n : Nat) : (fuel lo hi : Nat) → Nat
  | 0, lo, _ => lo
  | fuel + 1, lo, hi =>
    if lo < hi then
      let mid := (lo + hi) / 2
      if s.boundaries.getD mid 0 ≤ n then s.rank n fuel (mid + 1) hi else s.rank n fuel lo mid
    else lo

/-- Whether the code point `n` belongs to the set. -/
def contains (s : CodePointSet) (n : Nat) : Bool :=
  s.rank n s.boundaries.size 0 s.boundaries.size % 2 == 1

end CodePointSet

end ComponentScan.Text

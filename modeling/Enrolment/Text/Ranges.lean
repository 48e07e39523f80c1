/-!
Sets of characters given by ranges of code points, the form in which the Unicode tables of this
library are written.
-/

namespace Enrolment.Text

/-- Whether `n` lies in one of the ranges.  The ranges increase, so the search stops at the first
one that begins above `n`. -/
def inRanges : List (Nat × Nat) → Nat → Bool
  | [], _ => false
  | (first, last) :: ranges, n =>
    if n < first then false else n ≤ last || inRanges ranges n

end Enrolment.Text

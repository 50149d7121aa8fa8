/-!
# Sets of characters as sorted boundaries

A set of code points is written as the ascending list of the points where membership changes,
starting from "outside". A code point belongs to the set exactly when an odd number of
boundaries lies at or below it.
-/

namespace InlineComponents.Text

/-- Whether an odd number of the ascending boundaries is at most the given code point. -/
def withinBoundaries (point : Nat) : List Nat → Bool
  | [] => false
  | bound :: rest => if point < bound then false else !withinBoundaries point rest

end InlineComponents.Text

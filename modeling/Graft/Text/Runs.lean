-- Sets of characters as runs. A set is written as its bounds: the code
-- points at which membership changes, in rising order, so that a
-- character is in the set when an odd number of bounds stand at or below it.
namespace Graft.Text

/-- How many of the bounds stand at or below `n`. -/
def boundsBelow (bounds : Array Nat) (n : Nat) : Nat :=
  bounds.foldl (fun k b => if b ≤ n then k + 1 else k) 0

/-- The character lies inside one of the runs. -/
def inRuns (bounds : Array Nat) (c : Char) : Bool :=
  boundsBelow bounds c.toNat % 2 == 1

end Graft.Text

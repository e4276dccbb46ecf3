/-! # Sets of characters

A set of characters as the bounds of its ranges, which is how the tables of character properties are
written.
-/

namespace TypedClient.Text

/-- The number of entries that are at most `n` in an ascending array, when those before `low` are
and those from `high` on are not. -/
def countUpTo (a : Array Nat) (n low high : Nat) : Nat :=
  if low < high then
    let middle := (low + high) / 2
    if a.getD middle 0 ≤ n then countUpTo a n (middle + 1) high else countUpTo a n low middle
  else low
termination_by high - low

/-- A range begins at each bound of even index and ends before the next bound. The bounds ascend. -/
structure CodeSet where
  bounds : Array Nat

namespace CodeSet

/-- An odd number of bounds stands at or before a member. -/
def contains (s : CodeSet) (c : Char) : Bool :=
  countUpTo s.bounds c.toNat 0 s.bounds.size % 2 == 1

end CodeSet

end TypedClient.Text

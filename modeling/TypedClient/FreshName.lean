/-! # Fresh names

The first name of a sequence of candidates that is not taken yet.
-/

namespace TypedClient

/-- The first candidate that is not taken. One more candidate than there are taken names is
enough when candidates are pairwise different. -/
def freshName (taken : List String) (candidate : Nat → String) : String :=
  let candidates := (List.range (taken.length + 1)).map candidate
  (candidates.find? (· ∉ taken)).getD (candidate (taken.length + 1))

/-- `base`, `base2`, `base3` and so on. -/
def numbered (base : String) : Nat → String
  | 0     => base
  | n + 1 => base ++ toString (n + 2)

end TypedClient

import TypedClient.Text.Wrapping

/-! # Documentation lines

A description as lines of a comment.
-/

namespace TypedClient.Source

/-- The width that descriptions are wrapped to. -/
def documentationWidth : Nat := 80

/-- The comment lines for a description. Each line of the description is wrapped on its own; a line of
blanks gives an empty one, and every other line begins with a blank. -/
def documentationLines (description : String) : List String :=
  (Text.lines description).flatMap fun line =>
    if Text.isBlankText line then [""]
    else (Text.wrapLine documentationWidth line).map (" " ++ ·)

end TypedClient.Source

import TypedClient.Text.Width

/-! # Signs

A text as it is shown: its characters, and the escape sequences that only change how a terminal shows
them.
-/

namespace TypedClient.Text

inductive Sign where
  | shown (c : Char)
  /-- An escape sequence, which takes no room. -/
  | escape (cs : List Char)
  deriving DecidableEq

namespace Sign

def chars : Sign → List Char
  | .shown c   => [c]
  | .escape cs => cs

def width : Sign → Nat
  | .shown c  => charWidth c
  | .escape _ => 0

end Sign

/-- What has been read of an escape sequence, last character first. -/
inductive Escape where
  | opened (cs : List Char)
  /-- Ends with the first character in a certain range. -/
  | control (cs : List Char)
  /-- Ends with a bell or a terminator. -/
  | command (cs : List Char)

namespace Escape

def chars : Escape → List Char
  | .opened cs  => cs.reverse
  | .control cs => cs.reverse
  | .command cs => cs.reverse

/-- The sequence after a character; `none` if the character ends it. -/
def next (c : Char) : Escape → Option Escape
  | .opened cs  =>
    if c = '[' then some (.control (c :: cs))
    else if c = ']' then some (.command (c :: cs))
    else none
  | .control cs => if '@' ≤ c ∧ c ≤ '~' then none else some (.control (c :: cs))
  | .command cs =>
    if c = '\x07' ∨ (c = '\\' ∧ cs.head? = some '\x1b') then none else some (.command (c :: cs))

end Escape

/-- The signs of a text that continues an escape sequence or follows none. -/
def signsAfter : Option Escape → List Char → List Sign
  | none, []        => []
  | some e, []      => [.escape e.chars]
  | none, c :: cs   =>
    if c = '\x1b' then signsAfter (some (.opened [c])) cs else .shown c :: signsAfter none cs
  | some e, c :: cs =>
    match e.next c with
    | some e => signsAfter (some e) cs
    | none   => .escape (e.chars ++ [c]) :: signsAfter none cs

def signs (cs : List Char) : List Sign := signsAfter none cs

/-- The width of signs on a screen. -/
def signsWidth (ss : List Sign) : Nat := ss.foldl (fun width s => width + s.width) 0

end TypedClient.Text

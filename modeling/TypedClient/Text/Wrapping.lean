import TypedClient.Text.Alphanumeric
import TypedClient.Text.Blank
import TypedClient.Text.LineBreak
import TypedClient.Text.Sign

/-! # Wrapping

A long line of text is cut into lines of limited width. The text is first cut into fragments that a
line may end after; of all ways to put them on lines one of least cost is taken.
-/

namespace TypedClient.Text

structure Fragment where
  signs : List Sign
  /-- The number of blanks after it, which are dropped at the end of a line. -/
  blanks : Nat
  deriving DecidableEq

namespace Fragment

def width (f : Fragment) : Nat := signsWidth f.signs

/-- Signs with the blanks at their end counted. -/
def ofSigns (ss : List Sign) : Fragment :=
  let blanks := ss.reverse.takeWhile (· == .shown ' ')
  { signs := ss.take (ss.length - blanks.length), blanks := blanks.length }

/-- Fragments for parts of a fragment; the last part keeps its blanks. -/
def ofParts (blanks : Nat) : List (List Sign) → List Fragment
  | []      => []
  | [p]     => [⟨p, blanks⟩]
  | p :: ps => ⟨p, 0⟩ :: ofParts blanks ps

end Fragment

/-! ## Fragments of a line -/

/-- Hyphens have a rule of their own, and soft hyphens are no place to break a line. -/
def isAnyHyphen (c : Char) : Bool := c == '-' || c == '\u00ad'

/-- Cuts signs wherever a line may end. `word` and `escapes` are what stands after the last cut, last
sign first; a cut is made before the escape sequences. -/
def cutWords (x : BreakContext) (last : Option Char) (word escapes : List Sign) :
    List Sign → List (List Sign)
  | []                 => [(escapes ++ word).reverse]
  | .escape cs :: rest => cutWords x last word (.escape cs :: escapes) rest
  | .shown c :: rest   =>
    let k := BreakClass.ofChar c
    -- after a hyphen a break is left to `cutHyphens`
    if last.any (!isAnyHyphen ·) && x.breaksAt k then
      word.reverse :: cutWords (x.after k) (some c) (.shown c :: escapes) [] rest
    else cutWords (x.after k) (some c) (.shown c :: (escapes ++ word)) [] rest

/-- The last two words in one. -/
def joinLast : List (List Sign) → List (List Sign)
  | []            => []
  | [word]        => [word]
  | [a, b]        => [a ++ b]
  | word :: words => word :: joinLast words

def lastShown? (ss : List Sign) : Option Char :=
  ss.reverse.findSome? fun s => match s with
    | .shown c  => some c
    | .escape _ => none

/-- The words of a line. A line that ends with a hyphen is not cut before its last word. -/
def lineWords (ss : List Sign) : List (List Sign) :=
  let words := cutWords .start none [] [] ss
  if (lastShown? ss).any isAnyHyphen then joinLast words else words

/-- Cuts signs after each hyphen between letters or digits. `part` is what stands after the last
cut, last sign first, and `last` the character before the signs. -/
def cutHyphens (last : Option Char) (part : List Sign) : List Sign → List (List Sign)
  | []        => [part.reverse]
  | s :: rest =>
    let next := rest.head?.bind (·.chars.head?)
    let last' := s.chars.getLast?
    if s == .shown '-' && last.any isAlphanumeric && next.any isAlphanumeric then
      (s :: part).reverse :: cutHyphens last' [] rest
    else cutHyphens last' (s :: part) rest

/-- Cuts signs so that no part is wider than `limit`. `part` is what stands after the last cut, last
sign first, and `width` its width. -/
def cutWide (limit width : Nat) (part : List Sign) : List Sign → List (List Sign)
  | []        => [part.reverse]
  | s :: rest =>
    if 0 < width && limit < width + s.width then
      part.reverse :: cutWide limit s.width [s] rest
    else cutWide limit (width + s.width) (s :: part) rest

/-- The fragments of a line, none of them wider than `limit`. -/
def lineFragments (limit : Nat) (line : List Char) : List Fragment :=
  let words := (lineWords (signs line)).map Fragment.ofSigns
  let parts := words.flatMap fun f => Fragment.ofParts f.blanks (cutHyphens none [] f.signs)
  parts.flatMap fun f =>
    if limit < f.width then Fragment.ofParts f.blanks (cutWide limit 0 [] f.signs) else [f]

/-! ## Lines of least cost -/

/-- The cost of a line of the given width. Each line costs something; what stands out costs much, a
gap by its square; the gap of the last line is free, but a short fragment should not stand there
alone. -/
def lineCost (limit width : Nat) (isLast alone : Bool) : Nat :=
  1000 +
    if limit < width then 2500 * (width - limit)
    else if !isLast then (limit - width) * (limit - width)
    else if alone && 4 * width < limit then 25
    else 0

/-- Lines, the last of which is still open. -/
structure Arrangement where
  /-- The lines before the open one, last line first. -/
  closed : List (List Fragment) := []
  /-- The cost of the closed lines. -/
  cost : Nat := 0
  /-- The fragments of the open line, last fragment first. -/
  current : List Fragment := []
  /-- The width of the open line with all blanks. -/
  width : Nat := 0

namespace Arrangement

def push (f : Fragment) (a : Arrangement) : Arrangement :=
  { a with current := f :: a.current, width := a.width + f.width + f.blanks }

/-- Closes the open line, which ends with blanks that do not count. -/
def close (limit blanks : Nat) (isLast : Bool) (a : Arrangement) : Arrangement :=
  { closed := a.current.reverse :: a.closed
    cost := a.cost + lineCost limit (a.width - blanks) isLast (a.current.length == 1) }

/-- Of two arrangements the one of lower cost, and of equal ones the second. -/
def better (a b : Arrangement) : Arrangement := if b.cost ≤ a.cost then b else a

/-- The lines of least cost for more fragments after those of one of several arrangements. Of
arrangements that cost the same, the last one in the list is taken: its last line begins earliest. -/
def extend (limit : Nat) : Arrangement → List Arrangement → List Fragment → List (List Fragment)
  | a, _, []         => a.closed.reverse
  | a, as, f :: rest =>
    let a := a.push f
    let as := as.map (push f)
    -- the best way to end a line after this fragment, so that a new one begins
    let closed := as.foldl (fun best a => best.better (a.close limit f.blanks rest.isEmpty))
      (a.close limit f.blanks rest.isEmpty)
    extend limit closed (a :: as) rest

end Arrangement

/-- The text of a line of fragments. -/
def fragmentChars : List Fragment → List Char
  | []      => []
  | [f]     => f.signs.flatMap Sign.chars
  | f :: fs => f.signs.flatMap Sign.chars ++ List.replicate f.blanks ' ' ++ fragmentChars fs

/-- The lines for a line of text. One that is short is left as it is, without blanks at its end. -/
def wrapLine (limit : Nat) (line : String) : List String :=
  if line.utf8ByteSize < limit then [String.ofList (dropTrailing (· == ' ') line.toList)]
  else
    let lines := Arrangement.extend limit {} [] (lineFragments limit line.toList)
    lines.map fun fs => String.ofList (fragmentChars fs)

end TypedClient.Text

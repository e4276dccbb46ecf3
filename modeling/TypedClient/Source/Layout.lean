/-! # Layout

Source text with places where lines may be broken. Groups of such places stay on one line when they
fit; otherwise either all places of the group are broken or only those that must be.
-/

namespace TypedClient.Source

/-- A place where a line may be broken. -/
structure Break where
  /-- The blanks that stand there when the line is not broken. -/
  blanks : Nat := 0
  /-- The indentation of the new line, relative to that of the group. -/
  offset : Int := 0
  /-- What ends the line when it is broken. -/
  ending : String := ""
  /-- The line is never broken here, though the place counts as one. -/
  never : Bool := false
  deriving DecidableEq, Repr

inductive Layout where
  | text (s : String)
  | line (b : Break)
  /-- A group. When it does not fit on a line it is indented further by `indent`, and with `all`
  every place in it is broken. -/
  | group (indent : Int) (all : Bool) (body : List Layout)
  /-- Takes no space, but does not fit on any line. -/
  | unfit

namespace Layout

/-- The width of what does not fit on any line. -/
def endless : Nat := 0xffff

/-- The width of lines. -/
def margin : Int := 89

/-- Lines that are indented far still have this much room. -/
def leastRoom : Int := 60

def step : Int := 4

/-! ## Building layouts -/

/-- A line break in any case. -/
def hard : Layout := .line { blanks := endless }

/-- As `hard`, at the end of an indented group. -/
def hardOut : Layout := .line { blanks := endless, offset := -step }

/-- A blank or a line break. -/
def space : Layout := .line { blanks := 1 }

def spaceOut : Layout := .line { blanks := 1, offset := -step }

/-- Nothing or a line break. -/
def soft : Layout := .line {}

def softOut : Layout := .line { offset := -step }

def never : Layout := .line { never := true }

/-- Items with a comma between them and, when the last one ends a line, after that one. -/
def commaItems : List (List Layout) → List Layout
  | []            => []
  | [item]        => item ++ [.line { offset := -step, ending := "," }]
  | item :: items => item ++ [.text ",", space] ++ commaItems items

/-- Items between brackets: on one line, or each on its own. The group is indented by `indent`. -/
def listed (indent : Int) (opening closing : String) (items : List (List Layout)) :
    List Layout :=
  if items.isEmpty then [.text opening, .text closing]
  else [.text opening, .group indent true (soft :: commaItems items), .text closing]

/-- Lines in an indented group of their own, each preceded by a line break. -/
def lines : List (List Layout) → List Layout
  | []      => []
  | [l]     => hard :: l ++ [hardOut]
  | l :: ls => hard :: l ++ lines ls

/-! ## Width -/

mutual

/-- The width on one line. -/
def width : Layout → Nat
  | .text s         => s.utf8ByteSize
  | .line b         => b.blanks
  | .group _ _ body => totalWidth body
  | .unfit          => endless

def totalWidth : List Layout → Nat
  | []      => 0
  | l :: ls => l.width + totalWidth ls

end

/-- The width up to the next place where a line may be broken; `after` is the width up to there from
the end of the list. -/
def reach (after : Nat) : List Layout → Nat
  | []           => after
  | .line _ :: _ => 0
  | l :: ls      => l.width + reach after ls

/-! ## Rendering -/

/-- How the places of the current group are broken. -/
inductive Mode where
  | fits
  | all
  /-- Where the rest up to the next place does not fit. -/
  | needed
  deriving DecidableEq

structure Page where
  text : String := ""
  /-- The room left on the line. -/
  room : Int := margin
  indent : Int := 0
  /-- Blanks that are written before the next text. -/
  pending : Nat := 0

namespace Page

def write (p : Page) (s : String) : Page :=
  { p with
    text := p.text ++ String.ofList (List.replicate p.pending ' ') ++ s
    room := p.room - s.utf8ByteSize
    pending := 0 }

def blanks (p : Page) (n : Nat) : Page :=
  { p with room := p.room - n, pending := p.pending + n }

def newLine (p : Page) (b : Break) : Page :=
  let p := if b.ending.isEmpty then p else p.write b.ending
  let column := p.indent + b.offset
  { p with
    text := p.text ++ "\n"
    -- a line that begins far to the right has some room all the same
    room := max (margin - column) leastRoom
    pending := column.toNat }

end Page

mutual

/-- Renders a layout; `next` is the width from its end up to the next place. -/
def renderOn (mode : Mode) (next : Nat) (p : Page) : Layout → Page
  | .text s => p.write s
  | .line b =>
    let stays := b.never || match mode with
      | .fits   => true
      | .all    => false
      | .needed => b.blanks + next ≤ p.room
    if stays then p.blanks b.blanks else p.newLine b
  | .group indent all body =>
    -- what follows the group up to the next place has to fit as well
    if (totalWidth body + next : Nat) > p.room then
      let inner := if all then .all else .needed
      { renderAll inner next { p with indent := p.indent + indent } body with
        indent := p.indent }
    else renderAll .fits next p body
  | .unfit => p

def renderAll (mode : Mode) (after : Nat) (p : Page) : List Layout → Page
  | []      => p
  | l :: ls => renderAll mode after (renderOn mode (reach after ls) p l) ls

end

/-- The text of a layout in which all lines are of the outermost group. -/
def render (body : List Layout) : String :=
  (renderOn .needed 0 {} (.group 0 true body)).text

end Layout

end TypedClient.Source

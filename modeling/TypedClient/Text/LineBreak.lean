import TypedClient.Text.BreakClass

/-! # Line breaking

Where a line of a text may end: the Unicode line breaking algorithm, by the classes of the
characters on both sides.
-/

namespace TypedClient.Text

/-- What a place where a line might end is preceded by. -/
structure BreakContext where
  /-- The class of the last character that is neither a blank nor a mark joined to another. -/
  last : BreakClass
  /-- Blanks follow that character. -/
  blanks : Bool := false
  /-- The character before the place joins emoji. -/
  joined : Bool := false
  /-- The last character is a hyphen after a Hebrew letter. -/
  afterHebrew : Bool := false
  /-- The last character is the first letter of a flag. -/
  flagOpen : Bool := false

namespace BreakClass

/-- After such a character a line ends in any case. -/
def endsLine : BreakClass → Bool
  | .lineEnd | .carriageReturn | .lineFeed => true
  | _                                      => false

/-- Marks are not joined to such a character. -/
def takesNoMark (c : BreakClass) : Bool := c.endsLine || c == .blank || c == .zeroBlank

def isMark (c : BreakClass) : Bool := c == .combining || c == .joiner

/-- Letters of scripts that separate words by blanks. -/
def isLetter (c : BreakClass) : Bool := c == .letter || c == .hebrew

def isHangul : BreakClass → Bool
  | .leadingJamo | .vowelJamo | .trailingJamo | .openSyllable | .closedSyllable => true
  | _                                                                           => false

def isPicture : BreakClass → Bool
  | .ideograph | .emojiBase | .emojiModifier => true
  | _                                        => false

def opens (c : BreakClass) : Bool := c == .opening || c == .wideOpening

def closes (c : BreakClass) : Bool := c == .closing || c == .closingBracket

/-- What belongs to a number on either side. -/
def isUnit (c : BreakClass) : Bool := c == .unitBefore || c == .unitAfter

/-- A hyphen, or what breaks as one. -/
def isHyphen (c : BreakClass) : Bool := c == .hyphen || c == .breakAfter

/-- Numbers and what belongs to them stay together. -/
def inNumber (a b : BreakClass) : Bool :=
  if b.isUnit then a.closes || a == .digit
  else if b.opens then a.isUnit
  else if b == .digit then
    a.isUnit || a == .hyphen || a == .separator || a == .digit || a == .slash
  else false

/-- The parts of a Hangul syllable stay together. -/
def inSyllable (a b : BreakClass) : Bool :=
  match a with
  | .leadingJamo    => b.isHangul && b != .trailingJamo
  | .vowelJamo      => b == .vowelJamo || b == .trailingJamo
  | .openSyllable   => b == .vowelJamo || b == .trailingJamo
  | .trailingJamo   => b == .trailingJamo
  | .closedSyllable => b == .trailingJamo
  | _               => false

/-- Whether neighbours of these classes stay together, where no other rule decides. -/
def together (a b : BreakClass) : Bool :=
  (a.isLetter && b.isLetter) || (a.isLetter && b == .digit) || (a == .digit && b.isLetter)
    || (a == .unitBefore && (b.isPicture || b.isHangul))
    || ((a.isPicture || a.isHangul) && b == .unitAfter)
    || (a.isUnit && b.isLetter) || (a.isLetter && b.isUnit)
    || inNumber a b
    || inSyllable a b
    || (a == .separator && b.isLetter)
    || ((a.isLetter || a == .digit) && b == .opening)
    || (a == .closingBracket && (b.isLetter || b == .digit))
    || (a == .emojiBase && b == .emojiModifier)

end BreakClass

namespace BreakContext

open BreakClass

/-- The class of a character in its context: a mark that is not joined to another character counts
as a letter. -/
def classOf (x : BreakContext) (b : BreakClass) : BreakClass :=
  if b.isMark && (x.blanks || x.last.takesNoMark) then .letter else b

/-- Whether a line may end before a character. The first rule that applies decides. -/
def breaksAt (x : BreakContext) (next : BreakClass) : Bool :=
  let a := x.last
  let b := x.classOf next
  if !x.blanks && a.endsLine then !(a == .carriageReturn && b == .lineFeed)
  else if b.endsLine || b == .blank || b == .zeroBlank then false
  else if a == .zeroBlank then true
  else if x.joined || b.isMark then false
  else if b == .wordJoiner || (!x.blanks && (a == .wordJoiner || a == .glue)) then false
  else if b == .glue && !x.blanks && !a.isHyphen then false
  else if b.closes || b == .exclamation || b == .separator || b == .slash then false
  else if a.opens then false
  else if a == .quotation && b.opens then false
  else if a.closes && b == .nonstarter then false
  else if a == .breakBoth && b == .breakBoth then false
  else if x.blanks then true
  else if a == .quotation || b == .quotation then false
  else if a == .object || b == .object then true
  else if b.isHyphen || b == .nonstarter || a == .breakBefore then false
  else if x.afterHebrew then false
  else if a == .slash && b == .hebrew then false
  else if b == .inseparable then false
  else if a == .regional && b == .regional then !x.flagOpen
  else !together a b

/-- The context after a character. -/
def after (x : BreakContext) (next : BreakClass) : BreakContext :=
  let b := x.classOf next
  if b.isMark then { x with joined := next == .joiner }
  else if b == .blank then
    { last := if x.last.endsLine then .blank else x.last, blanks := true }
  else
    { last := b
      joined := next == .joiner
      afterHebrew := b.isHyphen && x.last == .hebrew && !x.blanks
      flagOpen := b == .regional && !(x.last == .regional && !x.blanks && x.flagOpen) }

/-- The context before the first character of a text. -/
def start : BreakContext := { last := .blank, blanks := true }

end BreakContext

end TypedClient.Text

/-! # Glyphs

The characters of a YAML text with their places. Any line break is one glyph, whether it is written
as one character or as a carriage return with a line feed.
-/

namespace TypedClient.Yaml

/-- A character with its place. Index, line and column count from zero. -/
structure Glyph where
  char : Char
  index : Nat
  line : Nat
  column : Nat

def isBreak (c : Char) : Bool :=
  c == '\n' || c == '\r' || c == '\u0085' || c == '\u2028' || c == '\u2029'

def isBlank (c : Char) : Bool := c == ' ' || c == '\t'

/-- The characters that names of anchors, directives and tag handles are made of. -/
def isNameChar (c : Char) : Bool := c.isAlphanum || c == '_' || c == '-'

/-- Whether a character may stand in a text at all. -/
def isPrintable (c : Char) : Bool :=
  let n := c.toNat
  n == 0x09 || n == 0x0A || n == 0x0D || (0x20 ≤ n && n ≤ 0x7E) || n == 0x85
    || (0xA0 ≤ n && n ≤ 0xD7FF) || (0xE000 ≤ n && n ≤ 0xFFFD) || 0x10000 ≤ n

/-- What a line break reads as. The line and the paragraph separator stay what they are. -/
def normalBreak (c : Char) : Char :=
  if c == '\r' || c == '\u0085' then '\n' else c

/-- The glyphs of a text that begins at the given place. -/
def glyphsFrom (index line column : Nat) : List Char → List Glyph
  | [] => []
  | '\r' :: '\n' :: cs => ⟨'\n', index, line, column⟩ :: glyphsFrom (index + 2) (line + 1) 0 cs
  | c :: cs =>
    if isBreak c then
      ⟨normalBreak c, index, line, column⟩ :: glyphsFrom (index + 1) (line + 1) 0 cs
    else
      ⟨c, index, line, column⟩ :: glyphsFrom (index + 1) line (column + 1) cs

def byteOrderMark : Char := '\ufeff'

/-- The glyphs of a whole text; a byte order mark at its start is no part of it. -/
def glyphs (s : String) : List Glyph :=
  match s.toList with
  | c :: cs => glyphsFrom 0 0 0 (if c = byteOrderMark then cs else c :: cs)
  | []      => []

namespace Glyph

def isBreak (g : Glyph) : Bool := Yaml.isBreak g.char

def isBlank (g : Glyph) : Bool := Yaml.isBlank g.char

/-- Whether a token that needs a gap after it may end where `gs` begins. -/
def gapFollows : List Glyph → Bool
  | []     => true
  | g :: _ => g.isBlank || g.isBreak

/-- The marker of a document's start or end where `gs` begins, at the start of a line. -/
def atMarker (mark : Char) : List Glyph → Bool
  | a :: b :: c :: rest =>
    a.column == 0 && a.char == mark && b.char == mark && c.char == mark && gapFollows rest
  | _ => false

def atDocumentMarker (gs : List Glyph) : Bool := atMarker '-' gs || atMarker '.' gs

def skipBlanks (gs : List Glyph) : List Glyph := gs.dropWhile (·.isBlank)

/-- Skips to the end of the line. -/
def skipLine (gs : List Glyph) : List Glyph := gs.dropWhile (!·.isBreak)

def text (gs : List Glyph) : String := String.ofList (gs.map (·.char))

end Glyph

end TypedClient.Yaml

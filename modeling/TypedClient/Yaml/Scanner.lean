import TypedClient.Yaml.Token

/-! # Scanning

Turns a text into tokens. The scanner keeps the indentation of the blocks it is in, and for each
level of brackets the place where a key may have begun.
-/

namespace TypedClient.Yaml

/-- A place where a key without a mark of its own may have begun. -/
structure KeyStart where
  /-- How many tokens stand before it. -/
  number : Nat
  index : Nat
  line : Nat
  column : Nat
  /-- Nothing but a key can begin here. -/
  required : Bool

structure Scanner where
  rest : List Glyph
  /-- The tokens so far, last one first. -/
  tokens : List Token
  /-- The column of the current block; `-1` outside of all blocks. -/
  indent : Int
  outerIndents : List Int
  /-- The place of a key in the innermost brackets. -/
  keyStart : Option KeyStart
  /-- Those in the brackets around; as many as there are open brackets. -/
  outerKeyStarts : List (Option KeyStart)
  /-- Whether a key may begin here. -/
  keyAllowed : Bool
  ended : Bool

namespace Scanner

def start (gs : List Glyph) : Scanner :=
  { rest := gs, tokens := [], indent := -1, outerIndents := [], keyStart := none,
    outerKeyStarts := [], keyAllowed := true, ended := false }

def inFlow (s : Scanner) : Bool := !s.outerKeyStarts.isEmpty

def add (s : Scanner) (t : Token) : Scanner := { s with tokens := t :: s.tokens }

/-- Puts tokens, the first one first, before the one with the given number. -/
def putIn (s : Scanner) (number : Nat) (ts : List Token) : Scanner :=
  -- tokens are kept last one first
  let after := s.tokens.length - number
  { s with tokens := s.tokens.take after ++ ts.reverse ++ s.tokens.drop after }

def column (s : Scanner) : Nat := (s.rest.head?.map (·.column)).getD 0

/-! ## Indentation and keys -/

/-- Ends the blocks that are indented deeper than `column`. -/
def endBlocks (s : Scanner) (column : Int) : Scanner :=
  if s.inFlow then s else go s.indent s.outerIndents s.tokens
where
  go (indent : Int) (outer : List Int) (tokens : List Token) : Scanner :=
    match outer with
    | next :: outer' =>
      if column < indent then go next outer' (.blockEnd :: tokens)
      else { s with indent, outerIndents := outer, tokens }
    | [] => { s with indent, outerIndents := [], tokens }

/-- Begins a block at `column` if it is deeper than the current one; the token for it is put in
before the token with the given number. -/
def beginBlock (s : Scanner) (column : Nat) (number : Nat) (t : Token) : Scanner :=
  if s.inFlow || (column : Int) ≤ s.indent then s
  else { s.putIn number [t] with indent := column, outerIndents := s.indent :: s.outerIndents }

/-- Gives up the place of a key; where a key is required this is a fault. -/
def dropKeyStart (s : Scanner) : Option Scanner :=
  if s.keyStart.any (·.required) then none else some { s with keyStart := none }

/-- Whether a key from `k` can no longer end at `g`: it keeps to one line and 1024 characters. -/
def KeyStart.tooFar (k : KeyStart) (g : Glyph) : Bool :=
  k.line < g.line || k.index + 1024 < g.index

/-- Gives up the places of keys that are too far back. -/
def dropFarKeyStarts (s : Scanner) : Option Scanner :=
  match s.rest with
  | [] => some s
  | g :: _ =>
    let far (k : Option KeyStart) : Bool := k.any (KeyStart.tooFar · g)
    let keep (k : Option KeyStart) : Option KeyStart := if far k then none else k
    let all := s.keyStart :: s.outerKeyStarts
    if all.any fun k => far k && k.any (·.required) then none
    else some { s with keyStart := keep s.keyStart, outerKeyStarts := s.outerKeyStarts.map keep }

/-- Remembers that a key may begin here. -/
def markKeyStart (s : Scanner) : Option Scanner :=
  match s.rest with
  | g :: _ =>
    if s.keyAllowed then do
      let s ← s.dropKeyStart
      -- a line of a block mapping has to begin with a key
      let required := !s.inFlow && s.indent == g.column
      some { s with
        keyStart := some ⟨s.tokens.length, g.index, g.line, g.column, required⟩ }
    else some s
  | [] => some s

/-! ## Tokens -/

/-- Skips blanks, comments and line breaks. Outside of brackets a key may begin on a new line, and
a tab is no blank where one may. -/
def skipGap (inFlow : Bool) (keyAllowed inComment : Bool) :
    List Glyph → Bool × List Glyph
  | [] => (keyAllowed, [])
  | g :: rest =>
    if g.isBreak then skipGap inFlow (keyAllowed || !inFlow) false rest
    else if inComment then skipGap inFlow keyAllowed true rest
    else if g.char == ' ' || ((inFlow || !keyAllowed) && g.char == '\t')
        || (g.index == 0 && g.char == byteOrderMark) then
      skipGap inFlow keyAllowed false rest
    else if g.char == '#' then skipGap inFlow keyAllowed true rest
    else (keyAllowed, g :: rest)

/-- Adds a token that no key can begin with, and takes `width` characters. -/
def indicator (s : Scanner) (t : Token) (width : Nat) (keyAllowed : Bool) : Option Scanner := do
  let s ← s.dropKeyStart
  some { s.add t with rest := s.rest.drop width, keyAllowed }

/-- A directive or the marker of a document's start or end: it ends all blocks. -/
def marker (s : Scanner) (lexeme : Lexeme) : Option Scanner := do
  let s ← (s.endBlocks (-1)).dropKeyStart
  some { s.add lexeme.token with rest := lexeme.rest, keyAllowed := false }

/-- The end of the text. -/
def finish (s : Scanner) : Option Scanner := do
  let s ← (s.endBlocks (-1)).dropKeyStart
  some { s.add .textEnd with ended := true }

/-- An opening bracket. -/
def openFlow (s : Scanner) (t : Token) : Option Scanner := do
  let s ← s.markKeyStart
  some { s.add t with
    rest := s.rest.drop 1
    keyStart := none
    outerKeyStarts := s.keyStart :: s.outerKeyStarts
    keyAllowed := true }

/-- A closing bracket. -/
def closeFlow (s : Scanner) (t : Token) : Option Scanner := do
  let s ← s.indicator t 1 false
  match s.outerKeyStarts with
  | k :: ks => some { s with keyStart := k, outerKeyStarts := ks }
  | []      => some s

/-- A dash before an item, or a question mark before a key. Outside of brackets it may begin a
block. -/
def blockIndicator (s : Scanner) (block t : Token) (allowedAfter : Bool) : Option Scanner :=
  if s.inFlow then s.indicator t 1 allowedAfter
  else if s.keyAllowed then
    (s.beginBlock s.column s.tokens.length block).indicator t 1 allowedAfter
  else none

/-- A colon. It makes what began at the place of a key a key. -/
def colon (s : Scanner) : Option Scanner :=
  match s.keyStart with
  | some k =>
    -- only now is it known to be a key; its token goes before what has been read since
    let s := (s.putIn k.number [.key]).beginBlock k.column k.number .blockMapping
    some { s.add .value with rest := s.rest.drop 1, keyStart := none, keyAllowed := false }
  | none => do
    -- no key has begun, so that it is an empty one
    if !s.inFlow && !s.keyAllowed then none
    let s := s.beginBlock s.column s.tokens.length .blockMapping
    some { s.add .value with rest := s.rest.drop 1, keyAllowed := !s.inFlow }

/-- A token that a key may begin with. -/
def content (s : Scanner) (lex : List Glyph → Option Lexeme) : Option Scanner := do
  let s ← s.markKeyStart
  let lexeme ← lex s.rest
  some { s.add lexeme.token with rest := lexeme.rest, keyAllowed := false }

def plain (s : Scanner) : Option Scanner := do
  let s ← s.markKeyStart
  let (scalar, endedLine) ← plainTail s.inFlow (s.indent + 1) .none [] s.rest
  some { s.add (.scalar scalar.text true) with rest := scalar.rest, keyAllowed := endedLine }

def block (s : Scanner) (folded : Bool) : Option Scanner := do
  let s ← s.dropKeyStart
  let scalar ← blockScalar folded s.indent (s.rest.drop 1)
  some { s.add (.scalar scalar.text false) with rest := scalar.rest, keyAllowed := true }

/-- Characters that begin no plain scalar. -/
def reserved : List Char :=
  ['-', '?', ':', ',', '[', ']', '{', '}', '#', '&', '*', '!', '|', '>', '\'', '"', '%', '@', '`']

/-- Whether a plain scalar may begin with `c` before `rest`. -/
def beginsPlain (s : Scanner) (c : Char) (rest : List Glyph) : Bool :=
  !(isBlank c || isBreak c || reserved.contains c)
    || (c == '-' && !rest.head?.any (·.isBlank))
    || (!s.inFlow && (c == '?' || c == ':') && !Glyph.gapFollows rest)

/-- Reads the token that begins with `g`. -/
def dispatch (s : Scanner) (g : Glyph) (rest : List Glyph) : Option Scanner :=
  let gap := Glyph.gapFollows rest
  if g.column == 0 && g.char == '%' then do s.marker (← directive rest)
  else if Glyph.atMarker '-' (g :: rest) then s.marker ⟨.documentStart, rest.drop 2⟩
  else if Glyph.atMarker '.' (g :: rest) then s.marker ⟨.documentEnd, rest.drop 2⟩
  else if g.char == '[' then s.openFlow .flowSequence
  else if g.char == '{' then s.openFlow .flowMapping
  else if g.char == ']' then s.closeFlow .flowSequenceEnd
  else if g.char == '}' then s.closeFlow .flowMappingEnd
  else if g.char == ',' then s.indicator .comma 1 true
  else if g.char == '-' && gap then s.blockIndicator .blockSequence .entry true
  else if g.char == '?' && (s.inFlow || gap) then
    s.blockIndicator .blockMapping .key (!s.inFlow)
  else if g.char == ':' && (s.inFlow || gap) then s.colon
  else if g.char == '*' then
    s.content fun gs => (anchorName (gs.drop 1)).map fun (n, rest) => ⟨.reuse n, rest⟩
  else if g.char == '&' then
    s.content fun gs => (anchorName (gs.drop 1)).map fun (n, rest) => ⟨.anchor n, rest⟩
  else if g.char == '!' then s.content (tagToken s.inFlow)
  else if g.char == '|' && !s.inFlow then s.block false
  else if g.char == '>' && !s.inFlow then s.block true
  else if g.char == '\'' then
    s.content fun gs =>
      (singleQuotedTail .none [] (gs.drop 1)).map fun q => ⟨.scalar q.text false, q.rest⟩
  else if g.char == '"' then
    s.content fun gs =>
      (doubleQuotedTail .outside .none [] (gs.drop 1)).map fun q =>
        ⟨.scalar q.text false, q.rest⟩
  else if s.beginsPlain g.char rest then s.plain
  else none

/-- Reads one token, with those that blocks and keys put in. -/
def step (s : Scanner) : Option Scanner := do
  let (keyAllowed, rest) := skipGap s.inFlow s.keyAllowed false s.rest
  let s := { s with keyAllowed, rest }
  match s.rest with
  | [] => s.finish
  | g :: rest =>
    let s ← s.dropFarKeyStarts
    -- what stands further left ends the blocks it is outside of
    (s.endBlocks g.column).dispatch g rest

/-- Reads all tokens. Each step takes at least one character. -/
def run (s : Scanner) : List Token :=
  match s.step with
  | none => (.fault :: s.tokens).reverse
  | some next =>
    if next.ended then next.tokens.reverse
    else if _h : next.rest.length < s.rest.length then next.run
    else (.fault :: s.tokens).reverse
termination_by s.rest.length

end Scanner

/-- The tokens of a text; the last one is the end of the text or a fault. -/
def tokens (s : String) : List Token :=
  if s.toList.all isPrintable then (Scanner.start (glyphs s)).run else [.fault]

end TypedClient.Yaml

import TypedClient.Yaml.Glyph

/-! # Scalars

The texts that plain, quoted and block scalars stand for. In the first two, the blanks and breaks
between words are folded.
-/

namespace TypedClient.Yaml

/-- What stands between two words of a scalar. -/
inductive Gap where
  | none
  /-- Blanks within a line, last character first. -/
  | blanks (cs : List Char)
  /-- The first line break, and those after it, last one first. -/
  | lines (first : Option Char) (more : List Char)

namespace Gap

/-- The gap with a blank added. Blanks next to a line break are dropped. -/
def blank (c : Char) : Gap → Gap
  | .none             => .blanks [c]
  | .blanks cs        => .blanks (c :: cs)
  | .lines first more => .lines first more

def lineBreak (c : Char) : Gap → Gap
  | .lines first more => .lines first (c :: more)
  | _                 => .lines (some c) []

/-- What the gap reads as, last character first. A single line feed is a space; of several, the
first is dropped. -/
def folded : Gap → List Char
  | .none                   => []
  | .blanks cs              => cs
  | .lines (some '\n') []   => [' ']
  | .lines (some '\n') more => more
  | .lines first more       => more ++ first.toList

end Gap

/-- The text of a scalar and what follows it. -/
structure Scalar where
  text : String
  rest : List Glyph

/-! ## Plain scalars -/

/-- Whether a plain scalar ends before a glyph. -/
def endsPlain (inFlow : Bool) (c : Char) (rest : List Glyph) : Bool :=
  (c == ':' && Glyph.gapFollows rest) || (inFlow && [',', '[', ']', '{', '}'].contains c)

/-- Whether a colon stands before an indicator, which a list or mapping in brackets does not
admit. -/
def misplacedColon (inFlow : Bool) (c : Char) (rest : List Glyph) : Bool :=
  inFlow && c == ':' && rest.head?.any fun g => [',', '?', '[', ']', '{', '}'].contains g.char

/-- Whether a plain scalar ends at a gap before `g`. -/
def endsAfterGap (inFlow : Bool) (indent : Int) (g : Glyph) (rest : List Glyph) : Bool :=
  (!inFlow && (g.column : Int) < indent) || Glyph.atDocumentMarker (g :: rest) || g.char == '#'

/-- The rest of a plain scalar, and whether it ended in a line break. `read` holds what was read,
last character first. Lines after the first are indented by `indent` at least. -/
def plainTail (inFlow : Bool) (indent : Int) (gap : Gap) (read : List Char) :
    List Glyph → Option (Scalar × Bool)
  | [] => some (⟨String.ofList read.reverse, []⟩, gap matches .lines ..)
  | g :: rest =>
    if g.isBlank then
      -- a tab does not indent
      if (gap matches .lines ..) && (g.column : Int) < indent && g.char == '\t' then none
      else plainTail inFlow indent (gap.blank g.char) read rest
    else if g.isBreak then plainTail inFlow indent (gap.lineBreak g.char) read rest
    else
      let done := some (⟨String.ofList read.reverse, g :: rest⟩, gap matches .lines ..)
      if !(gap matches .none) && endsAfterGap inFlow indent g rest then done
      else if misplacedColon inFlow g.char rest then none
      else if endsPlain inFlow g.char rest then done
      else plainTail inFlow indent .none (g.char :: (gap.folded ++ read)) rest

/-! ## Quoted scalars -/

/-- The rest of a scalar in single quotes. A quote in it is written twice. -/
def singleQuotedTail (gap : Gap) (read : List Char) : List Glyph → Option Scalar
  | [] => none
  | [g] =>
    if g.char == '\'' then some ⟨String.ofList (gap.folded ++ read).reverse, []⟩ else none
  | g :: h :: rest =>
    if g.isBlank then singleQuotedTail (gap.blank g.char) read (h :: rest)
    else if g.isBreak then singleQuotedTail (gap.lineBreak g.char) read (h :: rest)
    else if Glyph.atDocumentMarker (g :: h :: rest) then none
    else if g.char == '\'' then
      if h.char == '\'' then singleQuotedTail .none ('\'' :: (gap.folded ++ read)) rest
      else some ⟨String.ofList (gap.folded ++ read).reverse, h :: rest⟩
    else singleQuotedTail .none (g.char :: (gap.folded ++ read)) (h :: rest)

/-- How a scalar in double quotes goes on. -/
inductive EscapeState where
  | outside
  /-- After a backslash. -/
  | inside
  /-- Before hexadecimal digits, with the value of those already read. -/
  | digits (left : Nat) (value : Nat)

/-- The character that a letter after a backslash stands for. -/
def escaped? : Char → Option Char
  | '0'  => some '\x00'
  | 'a'  => some '\x07'
  | 'b'  => some '\x08'
  | 't'  => some '\t'
  | '\t' => some '\t'
  | 'n'  => some '\n'
  | 'v'  => some '\x0b'
  | 'f'  => some '\x0c'
  | 'r'  => some '\r'
  | 'e'  => some '\x1b'
  | ' '  => some ' '
  | '"'  => some '"'
  | '/'  => some '/'
  | '\\' => some '\\'
  | 'N'  => some '\u0085'
  | '_'  => some '\u00a0'
  | 'L'  => some '\u2028'
  | 'P'  => some '\u2029'
  | _    => none

/-- How many hexadecimal digits a letter after a backslash announces. -/
def escapeDigits? : Char → Option Nat
  | 'x' => some 2
  | 'u' => some 4
  | 'U' => some 8
  | _   => none

def hexDigit? (c : Char) : Option Nat :=
  if c.isDigit then some (c.toNat - '0'.toNat)
  else if 'a' ≤ c && c ≤ 'f' then some (c.toNat - 'a'.toNat + 10)
  else if 'A' ≤ c && c ≤ 'F' then some (c.toNat - 'A'.toNat + 10)
  else none

/-- The character of a number, unless it is that of half a pair or too large. -/
def charOf? (n : Nat) : Option Char :=
  if n < 0xD800 || (0xDFFF < n && n < 0x110000) then some (Char.ofNat n) else none

/-- The rest of a scalar in double quotes. A backslash before a line break joins the lines. -/
def doubleQuotedTail (state : EscapeState) (gap : Gap) (read : List Char) :
    List Glyph → Option Scalar
  | [] => none
  | g :: rest =>
    match state with
    | .digits left value =>
      match hexDigit? g.char with
      | none => none
      | some d =>
        let value := 16 * value + d
        if 1 < left then doubleQuotedTail (.digits (left - 1) value) .none read rest
        else
          match charOf? value with
          | some c => doubleQuotedTail .outside .none (c :: read) rest
          | none   => none
    | .inside =>
      if g.isBreak then doubleQuotedTail .outside (.lines none []) read rest
      else
        match escaped? g.char, escapeDigits? g.char with
        | some c, _      => doubleQuotedTail .outside .none (c :: read) rest
        | none,   some n => doubleQuotedTail (.digits n 0) .none read rest
        | none,   none   => none
    | .outside =>
      if g.isBlank then doubleQuotedTail .outside (gap.blank g.char) read rest
      else if g.isBreak then doubleQuotedTail .outside (gap.lineBreak g.char) read rest
      else if Glyph.atDocumentMarker (g :: rest) then none
      else if g.char == '"' then some ⟨String.ofList (gap.folded ++ read).reverse, rest⟩
      else if g.char == '\\' then doubleQuotedTail .inside .none (gap.folded ++ read) rest
      else doubleQuotedTail .outside .none (g.char :: (gap.folded ++ read)) rest

/-! ## Block scalars -/

/-- What becomes of the line breaks at the end of a block scalar. -/
inductive Chomping where
  | strip
  | clip
  | keep
  deriving DecidableEq

structure BlockHeader where
  chomping : Chomping
  /-- The indentation of the text, relative to the block around it. -/
  indent : Option Nat

def chomping? (c : Char) : Option Chomping :=
  if c = '-' then some .strip else if c = '+' then some .keep else none

def indentDigit? (c : Char) : Option Nat :=
  if c.isDigit && c ≠ '0' then some (c.toNat - '0'.toNat) else none

/-- The header of a block scalar after its indicator: chomping and indentation in either order. A
zero is no indentation; what it leaves over is then refused as the rest of the line. -/
def blockHeader : List Glyph → BlockHeader × List Glyph
  | [] => (⟨.clip, none⟩, [])
  | g :: rest =>
    match chomping? g.char, indentDigit? g.char with
    | some chomping, _ =>
      match rest with
      | h :: rest' =>
        match indentDigit? h.char with
        | some n => (⟨chomping, some n⟩, rest')
        | none   => (⟨chomping, none⟩, rest)
      | [] => (⟨chomping, none⟩, [])
    | none, some n =>
      match rest with
      | h :: rest' =>
        match chomping? h.char with
        | some chomping => (⟨chomping, some n⟩, rest')
        | none          => (⟨.clip, some n⟩, rest)
      | [] => (⟨.clip, some n⟩, [])
    | none, none => (⟨.clip, none⟩, g :: rest)

/-- Skips the indentation of a line and the empty lines before it. Without a known indentation,
zero, `deepest` is that of the deepest line so far. The breaks come last one first. -/
def blockBreaks (indent deepest : Nat) (breaks : List Char) :
    List Glyph → Option (Nat × List Char × List Glyph)
  | [] => some (deepest, breaks, [])
  | g :: rest =>
    let before := indent == 0 || g.column < indent
    if before && g.char == ' ' then blockBreaks indent deepest breaks rest
    else if before && g.char == '\t' then none
    else if g.isBreak then blockBreaks indent (max deepest g.column) (g.char :: breaks) rest
    else some (max deepest g.column, breaks, g :: rest)

theorem blockBreaks_length {indent deepest deepest' : Nat} {breaks breaks' : List Char}
    {gs rest : List Glyph} (h : blockBreaks indent deepest breaks gs = some (deepest', breaks', rest)) :
    rest.length ≤ gs.length := by
  fun_induction blockBreaks indent deepest breaks gs with
  | case1 => simp_all
  | case2 deepest breaks g gs _ _ ih => have := ih h; simp only [List.length_cons]; omega
  | case3 => simp at h
  | case4 deepest breaks g gs _ _ _ _ ih => have := ih h; simp only [List.length_cons]; omega
  | case5 =>
    simp only [Option.some.injEq, Prod.mk.injEq] at h
    simp [← h.2.2]

/-- The lines read so far of a block scalar; all texts last character first. -/
structure BlockLines where
  read : List Char
  /-- The break after the last line. -/
  last : Option Char
  /-- The breaks of the empty lines after it. -/
  empty : List Char
  rest : List Glyph

/-- The lines of a block scalar. When folded, a line feed between two lines that do not begin with
a blank is a space. `indented` tells whether the last line began with a blank. -/
def blockLines (folded : Bool) (indent : Nat) (indented : Bool) (lines : BlockLines) :
    Option BlockLines :=
  match hrest : lines.rest with
  | [] => some lines
  | g :: gs =>
    if g.column ≠ indent then some lines
    else
      let joined :=
        if folded && lines.last == some '\n' && !indented && !g.isBlank then
          if lines.empty.isEmpty then ' ' :: lines.read else lines.empty ++ lines.read
        else lines.empty ++ lines.last.toList ++ lines.read
      let read := ((g :: gs).takeWhile (!·.isBreak)).reverse.map (·.char) ++ joined
      match hline : Glyph.skipLine (g :: gs) with
      | [] => some ⟨read, none, [], []⟩
      | b :: after =>
        match hbreaks : blockBreaks indent 0 [] after with
        | none => none
        | some (_, empty, rest) =>
          have : rest.length < lines.rest.length := by
            have h₁ := blockBreaks_length hbreaks
            have h₂ : (Glyph.skipLine (g :: gs)).length ≤ (g :: gs).length :=
              (List.dropWhile_sublist _).length_le
            rw [hline] at h₂
            rw [hrest]
            simp only [List.length_cons] at h₂ ⊢
            omega
          blockLines folded indent g.isBlank ⟨read, some b.char, empty, rest⟩
termination_by lines.rest.length

/-- A block scalar after its indicator, in a block of the given indentation. -/
def blockScalar (folded : Bool) (around : Int) (gs : List Glyph) : Option Scalar := do
  let (header, gs) := blockHeader gs
  let gs := Glyph.skipBlanks gs
  -- a comment may follow the header, and nothing else
  let gs := match gs with
    | g :: _ => if g.char == '#' then Glyph.skipLine gs else gs
    | []     => gs
  let gs ← match gs with
    | []        => some []
    | g :: rest => if g.isBreak then some rest else none
  -- outside of all blocks the indentation is counted from the margin
  let given := header.indent.map fun n => if 0 ≤ around then around.toNat + n else n
  let (deepest, empty, gs) ← blockBreaks (given.getD 0) 0 [] gs
  -- without a given one, the empty lines at the start may be the deepest
  let indent := given.getD (max deepest (max (around + 1).toNat 1))
  let lines ← blockLines folded indent false ⟨[], none, empty, gs⟩
  let ending := match header.chomping with
    | .strip => []
    | .clip  => lines.last.toList
    | .keep  => lines.empty ++ lines.last.toList
  some ⟨String.ofList (ending ++ lines.read).reverse, lines.rest⟩

end TypedClient.Yaml

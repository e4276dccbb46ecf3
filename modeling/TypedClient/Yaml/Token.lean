import TypedClient.Yaml.Scalar

/-! # Tokens

The tokens of a YAML text. Indentation appears as tokens of its own that begin and end blocks. A
key is known only by the colon after it, so its token is put in at the place where the key began.
-/

namespace TypedClient.Yaml

inductive Token where
  | version (major minor : Nat)
  | tagHandle (handle lead : String)
  | documentStart
  | documentEnd
  | blockSequence
  | blockMapping
  | blockEnd
  | flowSequence
  | flowSequenceEnd
  | flowMapping
  | flowMappingEnd
  | entry
  /-- A comma between the items of a list or mapping in brackets. -/
  | comma
  | key
  | value
  | reuse (anchor : String)
  | anchor (name : String)
  | tag (handle suffix : String)
  | scalar (text : String) (plain : Bool)
  | textEnd
  /-- What follows is not YAML. -/
  | fault
  deriving DecidableEq

/-- A token and what follows it. -/
structure Lexeme where
  token : Token
  rest : List Glyph

/-! ## Anchors and tags -/

/-- The longest name where `gs` begins, and what follows it. -/
def nameSpan (gs : List Glyph) : String × List Glyph :=
  (Glyph.text (gs.takeWhile (isNameChar ·.char)), gs.dropWhile (isNameChar ·.char))

/-- A name after `*` or `&`. -/
def anchorName (gs : List Glyph) : Option (String × List Glyph) :=
  let (name, rest) := nameSpan gs
  let ends := Glyph.gapFollows rest
    || rest.head?.any fun g => ['?', ':', ',', ']', '}', '%', '@', '`'].contains g.char
  if name.isEmpty || !ends then none else some (name, rest)

/-- The characters of a tag besides those of names. -/
def tagChars : List Char :=
  [';', '/', '?', ':', '@', '&', '=', '+', '$', '.', '%', '!', '~', '*', '\'', '(', ')']

/-- The bytes of percent escapes, first byte first, up to the end of one character. -/
def percentBytes : Nat → List Glyph → Option (List Nat × List Glyph)
  | 0, gs => some ([], gs)
  | n + 1, p :: a :: b :: rest =>
    if p.char ≠ '%' then none
    else
      match hexDigit? a.char, hexDigit? b.char, percentBytes n rest with
      | some x, some y, some (bytes, rest') => some ((16 * x + y) :: bytes, rest')
      | _,      _,      _                   => none
  | _ + 1, _ => none

/-- The number of bytes of a character by the first of them. -/
def byteCount? (first : Nat) : Option Nat :=
  if first < 0x80 then some 1
  else if first / 0x20 = 0x6 then some 2
  else if first / 0x10 = 0xE then some 3
  else if first / 0x8 = 0x1E then some 4
  else none

/-- A character written as percent escapes of its bytes. -/
def percentChar (gs : List Glyph) : Option (Char × List Glyph) := do
  let (first, _) ← percentBytes 1 gs
  let count ← byteCount? (first.headD 0)
  let (bytes, rest) ← percentBytes count gs
  if !(bytes.drop 1).all (fun b => b / 0x40 = 2) then none
  let lead := bytes.headD 0 % (if count = 1 then 0x80 else 0x80 / Nat.pow 2 count)
  some (Char.ofNat ((bytes.drop 1).foldl (fun n b => 64 * n + b % 64) lead), rest)

/-- Reads the characters of a tag; `fuel` bounds their number. -/
def tagText (inBrackets : Bool) (fuel : Nat) (gs : List Glyph) :
    Option (List Char × List Glyph) :=
  match fuel, gs with
  | 0,        _         => some ([], gs)
  | _ + 1,    []        => some ([], [])
  | fuel + 1, g :: rest =>
    if g.char == '%' then do
      let (c, rest) ← percentChar gs
      let (cs, rest) ← tagText inBrackets fuel rest
      some (c :: cs, rest)
    else if isNameChar g.char || tagChars.contains g.char
        || (inBrackets && [',', '[', ']'].contains g.char) then do
      let (cs, rest) ← tagText inBrackets fuel rest
      some (g.char :: cs, rest)
    else some ([], gs)

/-- The text of a tag after the characters `lead`; it must not be empty altogether. -/
def tagSuffix (inBrackets : Bool) (lead : String) (gs : List Glyph) :
    Option (String × List Glyph) := do
  let (cs, rest) ← tagText inBrackets gs.length gs
  if lead.isEmpty && cs.isEmpty then none
  some ((lead.drop 1).toString ++ String.ofList cs, rest)

/-- A handle: `!`, or a name between two of them. Only a directive insists on the second. -/
def tagHandle (directive : Bool) (gs : List Glyph) : Option (String × List Glyph) :=
  match gs with
  | [] => none
  | g :: rest =>
    if g.char ≠ '!' then none
    else
      let (name, rest') := nameSpan rest
      match rest' with
      | h :: rest'' =>
        if h.char == '!' then some ("!" ++ name ++ "!", rest'')
        else if directive && !name.isEmpty then none
        else some ("!" ++ name, rest')
      | [] => if directive && !name.isEmpty then none else some ("!" ++ name, [])

/-- A tag, its exclamation mark included. -/
def tagToken (inFlow : Bool) (gs : List Glyph) : Option Lexeme := do
  let ends (rest : List Glyph) : Bool :=
    Glyph.gapFollows rest || (inFlow && rest.head?.any (·.char == ','))
  let (handle, suffix, rest) ←
    match gs with
    | _ :: h :: rest =>
      if h.char == '<' then do
        let (suffix, rest) ← tagSuffix true "" rest
        match rest with
        | g :: rest' => if g.char == '>' then some ("", suffix, rest') else none
        | []         => none
      else shorthand gs
    | _ => shorthand gs
  if !ends rest then none
  some ⟨.tag handle suffix, rest⟩
where
  shorthand (gs : List Glyph) : Option (String × String × List Glyph) := do
    let (handle, rest) ← tagHandle false gs
    if 1 < handle.length && handle.endsWith "!" then
      let (suffix, rest) ← tagSuffix false "" rest
      some (handle, suffix, rest)
    else
      let (suffix, rest) ← tagSuffix false handle rest
      if suffix.isEmpty then some ("", "!", rest) else some ("!", suffix, rest)

/-! ## Directives -/

/-- A number of at most nine digits. -/
def shortNumber (gs : List Glyph) : Option (Nat × List Glyph) :=
  let digits := gs.takeWhile (·.char.isDigit)
  if digits.isEmpty || 9 < digits.length then none
  else
    some (digits.foldl (fun n g => 10 * n + (g.char.toNat - '0'.toNat)) 0,
      gs.dropWhile (·.char.isDigit))

/-- A directive after its percent sign: the version of the text or a handle for tags. -/
def directive (gs : List Glyph) : Option Lexeme := do
  let (name, rest) := nameSpan gs
  if !Glyph.gapFollows rest then none
  let ⟨token, rest⟩ ←
    match name with
    | "YAML" => do
      let (major, rest) ← shortNumber (Glyph.skipBlanks rest)
      match rest with
      | g :: rest' =>
        if g.char ≠ '.' then none
        else
          let (minor, rest) ← shortNumber rest'
          some (Lexeme.mk (.version major minor) rest)
      | [] => none
    | "TAG" => do
      let (handle, rest) ← tagHandle true (Glyph.skipBlanks rest)
      if !rest.head?.any (·.isBlank) then none
      let (lead, rest) ← tagSuffix true "" (Glyph.skipBlanks rest)
      if !Glyph.gapFollows rest then none
      some (Lexeme.mk (.tagHandle handle lead) rest)
    | _ => none
  let rest := Glyph.skipBlanks rest
  let rest := if rest.head?.any (·.char == '#') then Glyph.skipLine rest else rest
  match rest with
  | []         => some ⟨token, []⟩
  | g :: rest' => if g.isBreak then some ⟨token, rest'⟩ else none

end TypedClient.Yaml

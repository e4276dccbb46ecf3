import TypedClient.Data.Value

/-! # JSON text

Reads a JSON text as document data. A fault is known by the place where reading stopped, given as
the number of bytes that were still unread.
-/

namespace TypedClient.Json

/-- The bytes that `cs` takes in UTF-8. -/
def byteSize (cs : List Char) : Nat := cs.foldl (fun n c => n + c.utf8Size) 0

/-- A value and the rest of the text, or the number of bytes unread at a fault. -/
abbrev Reading (α : Type) := Except Nat (α × List Char)

/-- Stops where `cs` begins. -/
def stop {α : Type} (cs : List Char) : Except Nat α := .error (byteSize cs)

/-- Stops one byte into `cs`, or at the end. -/
def stopAfter {α : Type} (cs : List Char) : Except Nat α := .error (byteSize cs - 1)

def isBlank (c : Char) : Bool := c == ' ' || c == '\n' || c == '\t' || c == '\r'

def skipBlanks : List Char → List Char
  | [] => []
  | c :: cs => if isBlank c then skipBlanks cs else c :: cs

theorem skipBlanks_length (cs : List Char) : (skipBlanks cs).length ≤ cs.length := by
  fun_induction skipBlanks cs with
  | case1 => simp
  | case2 c cs _ ih => simp only [List.length_cons]; omega
  | case3 => simp

/-! ## Texts -/

def hexDigit? (c : Char) : Option Nat :=
  if '0' ≤ c && c ≤ '9' then some (c.toNat - '0'.toNat)
  else if 'a' ≤ c && c ≤ 'f' then some (c.toNat - 'a'.toNat + 10)
  else if 'A' ≤ c && c ≤ 'F' then some (c.toNat - 'A'.toNat + 10)
  else none

def hexValue (cs : List Char) : Option Nat :=
  cs.foldlM (fun n c => (hexDigit? c).map (16 * n + ·)) 0

/-- Four hexadecimal digits. Four bytes are taken before they are looked at. -/
def hexEscape : List Char → Reading Nat
  | a :: b :: c :: d :: rest =>
    match hexValue [a, b, c, d] with
    | some n => .ok (n, rest)
    | none   => .error (byteSize (a :: b :: c :: d :: rest) - 4)
  | cs => .error (byteSize cs - 4)

/-- The second escape of a character beyond the basic plane. -/
def lowEscape (high : Nat) : List Char → Reading Char
  | '\\' :: 'u' :: cs =>
    match hexEscape cs with
    | .error left => .error left
    | .ok (low, rest) =>
      -- the second half of a pair
      if low < 0xDC00 || 0xDFFF < low then stop rest
      else .ok (Char.ofNat (0x10000 + (high - 0xD800) * 0x400 + (low - 0xDC00)), rest)
  | '\\' :: cs => stopAfter cs
  | cs => stopAfter cs

/-- The character of a `\u` escape; a character beyond the basic plane takes two of them. -/
def unicodeEscape (cs : List Char) : Reading Char :=
  match hexEscape cs with
  | .error left => .error left
  | .ok (n, rest) =>
    -- a second half without a first one
    if 0xDC00 ≤ n && n ≤ 0xDFFF then stop rest
    else if n < 0xD800 || 0xDBFF < n then .ok (Char.ofNat n, rest)
    else lowEscape n rest

theorem hexEscape_length {cs rest : List Char} {n : Nat} (h : hexEscape cs = .ok (n, rest)) :
    rest.length < cs.length := by
  unfold hexEscape at h
  split at h
  · split at h <;> simp_all
    omega
  · simp at h

theorem lowEscape_length {cs rest : List Char} {high : Nat} {c : Char}
    (h : lowEscape high cs = .ok (c, rest)) : rest.length < cs.length := by
  unfold lowEscape at h
  split at h
  · split at h
    · simp at h
    · rename_i heq
      have := hexEscape_length heq
      split at h
      · simp [stop] at h
      · simp only [Except.ok.injEq, Prod.mk.injEq] at h
        simp only [List.length_cons, ← h.2]
        omega
  · simp [stopAfter] at h
  · simp [stopAfter] at h

theorem unicodeEscape_length {cs rest : List Char} {c : Char}
    (h : unicodeEscape cs = .ok (c, rest)) : rest.length < cs.length := by
  unfold unicodeEscape at h
  split at h
  · simp at h
  · rename_i heq
    have := hexEscape_length heq
    split at h
    · simp [stop] at h
    · split at h
      · simp only [Except.ok.injEq, Prod.mk.injEq] at h
        simp only [← h.2]
        omega
      · have := lowEscape_length h
        omega

/-- The character that a letter after a backslash stands for. -/
def shortEscape? : Char → Option Char
  | '"'  => some '"'
  | '\\' => some '\\'
  | '/'  => some '/'
  | 'b'  => some '\x08'
  | 'f'  => some '\x0c'
  | 'n'  => some '\n'
  | 'r'  => some '\r'
  | 't'  => some '\t'
  | _    => none

/-- The rest of a text after its opening quote. `read` holds what was read, last character
first. -/
def textTail (read : List Char) (cs : List Char) : Reading String :=
  match cs with
  | [] => stop []
  | '"' :: rest => .ok (String.ofList read.reverse, rest)
  | '\\' :: 'u' :: rest =>
    match h : unicodeEscape rest with
    | .error left => .error left
    | .ok (c, rest') =>
      have := unicodeEscape_length h
      textTail (c :: read) rest'
  | '\\' :: c :: rest =>
    match shortEscape? c with
    | some e => textTail (e :: read) rest
    | none   => stopAfter (c :: rest)
  | '\\' :: [] => stop []
  | c :: rest => if c.toNat < 0x20 then stopAfter (c :: rest) else textTail (c :: read) rest
termination_by cs.length

theorem textTail_length {read cs rest : List Char} {s : String}
    (h : textTail read cs = .ok (s, rest)) : rest.length < cs.length := by
  fun_induction textTail read cs with
  | case1 => simp [stop] at h
  | case2 => simp_all
  | case3 => simp at h
  | case4 read rest' c r hu this ih => have := ih h; simp only [List.length_cons]; omega
  | case5 read c rest' _ e _ ih => have := ih h; simp only [List.length_cons]; omega
  | case6 => simp [stopAfter] at h
  | case7 => simp [stop] at h
  | case8 => simp [stopAfter] at h
  | case9 read c rest' _ _ _ _ _ ih => have := ih h; simp only [List.length_cons]; omega

/-! ## Numbers -/

/-- The powers of ten from `1` to `1e308`. -/
def powerOfTen (n : Nat) : Float := Float.ofScientific 1 false n

/-- `x * 10 ^ exponent` in steps of at most `1e308`; `none` when it is too large. -/
def scale (x : Float) (exponent : Int) : Option Float :=
  if 308 < exponent then (if x == 0.0 then some x else none)
  else if 0 ≤ exponent then
    let scaled := x * powerOfTen exponent.toNat
    if scaled.isInf then none else some scaled
  else if h : exponent < -308 then
    -- in two steps, since the power itself is beyond a double
    if x == 0.0 then some x else scale (x / powerOfTen 308) (exponent + 308)
  else some (x / powerOfTen (-exponent).toNat)
termination_by exponent.natAbs
decreasing_by omega

/-- The largest significand that is carried exactly. -/
def significandLimit : Nat := Nat.pow 2 64 - 1

/-- A number under way: its sign, its leading digits and a power of ten. -/
structure Significand where
  negative : Bool
  digits : Nat
  exponent : Int

/-- The double of a significand. -/
def Significand.toReal (s : Significand) (rest : List Char) : Reading Number :=
  match scale (Float.ofNat s.digits) s.exponent with
  | none   => stop rest
  | some x => .ok (.real (if s.negative then -x else x), rest)

/-- A whole number without fraction or exponent stays whole if it fits a machine word. -/
def Significand.toWhole (s : Significand) : Number :=
  if !s.negative then .int s.digits
  -- minus zero, and what is below a machine word
  else if s.digits = 0 ∨ Nat.pow 2 63 < s.digits then .real (-(Float.ofNat s.digits))
  else .int (-s.digits)

def digitValue (c : Char) : Nat := c.toNat - '0'.toNat

/-- Adds digits while the significand stays within its limit; says how many were added and which
digits follow. -/
def addDigits (digits added : Nat) : List Char → Nat × Nat × List Char
  | [] => (digits, added, [])
  | c :: cs =>
    let next := 10 * digits + digitValue c
    if c.isDigit && next ≤ significandLimit then addDigits next (added + 1) cs
    else (digits, added, c :: cs)

def skipDigits : List Char → List Char
  | [] => []
  | c :: cs => if c.isDigit then skipDigits cs else c :: cs

theorem skipDigits_length (cs : List Char) : (skipDigits cs).length ≤ cs.length := by
  fun_induction skipDigits cs with
  | case1 => simp
  | case2 c cs _ ih => simp only [List.length_cons]; omega
  | case3 => simp

theorem addDigits_length (digits added : Nat) (cs : List Char) :
    (addDigits digits added cs).2.2.length ≤ cs.length := by
  fun_induction addDigits digits added cs with
  | case1 => simp
  | case2 digits added c cs _ _ ih => simp only [List.length_cons]; omega
  | case3 => simp

/-- The largest exponent that is read exactly. -/
def exponentLimit : Nat := Nat.pow 2 31 - 1

/-- The digits of an exponent after its first; `sum` is its value so far. -/
def exponentDigits (s : Significand) (down : Bool) (sum : Nat) : List Char → Reading Number
  | [] => { s with exponent := if down then s.exponent - sum else s.exponent + sum }.toReal []
  | c :: cs =>
    if c.isDigit then
      let next := 10 * sum + digitValue c
      if next ≤ exponentLimit then exponentDigits s down next cs
      -- zero stays zero however large the exponent is
      else if s.digits ≠ 0 ∧ !down then stop cs
      else .ok (.real (if s.negative then -0.0 else 0.0), skipDigits cs)
    else
      { s with exponent := if down then s.exponent - sum else s.exponent + sum }.toReal (c :: cs)

/-- An exponent after its letter: a sign or none, then a digit. -/
def exponentPart (s : Significand) (cs : List Char) : Reading Number :=
  let (down, cs) := match cs with
    | '+' :: rest => (false, rest)
    | '-' :: rest => (true, rest)
    | rest        => (false, rest)
  match cs with
  | [] => stop []
  | c :: rest =>
    if c.isDigit then exponentDigits s down (digitValue c) rest else stopAfter (c :: rest)

/-- A fraction after its point: at least one digit, digits beyond the limit dropped. -/
def fractionPart (s : Significand) (cs : List Char) : Reading Number :=
  let (digits, added, rest) := addDigits s.digits 0 cs
  let s' := { s with digits, exponent := s.exponent - added }
  match rest with
  | c :: _ =>
    if c.isDigit then
      match skipDigits rest with
      | 'e' :: tail | 'E' :: tail => exponentPart s' tail
      | tail => s'.toReal tail
    else if added = 0 then stopAfter rest
    else if c = 'e' ∨ c = 'E' then exponentPart s' (rest.drop 1)
    else s'.toReal rest
  | [] => if added = 0 then stop [] else s'.toReal []

/-- What follows the whole part of a number. -/
def afterWhole (s : Significand) (cs : List Char) : Reading Number :=
  match cs with
  | '.' :: rest => fractionPart s rest
  | 'e' :: rest | 'E' :: rest => exponentPart s rest
  | rest => if s.exponent = 0 then .ok (s.toWhole, rest) else s.toReal rest

/-- A number after its sign. A leading zero stands alone. -/
def number (negative : Bool) (cs : List Char) : Reading Number :=
  match cs with
  | [] => stop []
  | '0' :: rest =>
    match rest with
    | c :: _ => if c.isDigit then stopAfter rest else afterWhole ⟨negative, 0, 0⟩ rest
    | [] => afterWhole ⟨negative, 0, 0⟩ []
  | c :: rest =>
    if c.isDigit then
      let (digits, _, more) := addDigits (digitValue c) 0 rest
      -- digits beyond the limit count by their number only
      let dropped := more.length - (skipDigits more).length
      afterWhole ⟨negative, digits, dropped⟩ (skipDigits more)
    else stopAfter (c :: rest)

theorem toReal_length {s : Significand} {cs rest : List Char} {n : Number}
    (h : s.toReal cs = .ok (n, rest)) : rest.length ≤ cs.length := by
  unfold Significand.toReal at h
  split at h <;> simp_all [stop]

theorem exponentDigits_length {s : Significand} {down : Bool} {sum : Nat} {cs rest : List Char}
    {n : Number} (h : exponentDigits s down sum cs = .ok (n, rest)) :
    rest.length ≤ cs.length := by
  fun_induction exponentDigits s down sum cs with
  | case1 => exact toReal_length h
  | case2 sum c cs _ _ _ ih => have := ih h; simp only [List.length_cons]; omega
  | case3 => simp [stop] at h
  | case4 sum c cs =>
    have := skipDigits_length cs
    simp only [Except.ok.injEq, Prod.mk.injEq] at h
    simp only [List.length_cons, ← h.2]; omega
  | case5 => exact toReal_length h

theorem exponentPart_length {s : Significand} {cs rest : List Char} {n : Number}
    (h : exponentPart s cs = .ok (n, rest)) : rest.length ≤ cs.length := by
  unfold exponentPart at h
  split at h
  rename_i down cs' hc
  have hle : cs'.length ≤ cs.length := by
    split at hc <;> (simp only [Prod.mk.injEq] at hc; simp [← hc.2])
  split at h
  · simp [stop] at h
  · split at h
    · have := exponentDigits_length h
      simp only [List.length_cons] at hle; omega
    · simp [stopAfter] at h

theorem fractionPart_length {s : Significand} {cs rest : List Char} {n : Number}
    (h : fractionPart s cs = .ok (n, rest)) : rest.length ≤ cs.length := by
  unfold fractionPart at h
  have hle := addDigits_length s.digits 0 cs
  revert h hle
  generalize addDigits s.digits 0 cs = p
  obtain ⟨digits, added, more⟩ := p
  intro h hle
  simp only at h hle
  split at h
  · split at h
    · rename_i c tail _
      have hs := skipDigits_length (c :: tail)
      split at h
      all_goals rename_i heq
      · have := exponentPart_length h; rw [heq] at hs; simp at hs hle; omega
      · have := exponentPart_length h; rw [heq] at hs; simp at hs hle; omega
      · have := toReal_length h; simp at hs hle; omega
    · split at h
      · simp [stopAfter] at h
      · split at h
        · have := exponentPart_length h; simp at this hle; omega
        · have := toReal_length h; omega
  · split at h
    · simp [stop] at h
    · have := toReal_length h; simp at this; simp [this]

theorem afterWhole_length {s : Significand} {cs rest : List Char} {n : Number}
    (h : afterWhole s cs = .ok (n, rest)) : rest.length ≤ cs.length := by
  unfold afterWhole at h
  split at h
  · have := fractionPart_length h; simp; omega
  · have := exponentPart_length h; simp; omega
  · have := exponentPart_length h; simp; omega
  · split at h
    · simp_all
    · exact toReal_length h

theorem number_length {negative : Bool} {cs rest : List Char} {n : Number}
    (h : number negative cs = .ok (n, rest)) : rest.length < cs.length := by
  unfold number at h
  split at h
  · simp [stop] at h
  · split at h
    · split at h
      · simp [stopAfter] at h
      · have := afterWhole_length h; simp at this ⊢; omega
    · have := afterWhole_length h; simp at this ⊢; simp [this]
  · split at h
    · rename_i c tail _ _
      have ha := addDigits_length (digitValue c) 0 tail
      have hs := skipDigits_length (addDigits (digitValue c) 0 tail).2.2
      have hw := afterWhole_length h
      simp only [List.length_cons]
      exact Nat.lt_succ_of_le (Nat.le_trans hw (Nat.le_trans hs ha))
    · simp [stopAfter] at h

/-! ## Values -/

/-- The rest of a literal after its first letter. -/
def literalTail (value : Data) : List Char → List Char → Reading Data
  | [], cs => .ok (value, cs)
  | _ :: _, [] => stop []
  | e :: es, c :: cs => if c = e then literalTail value es cs else stopAfter (c :: cs)

theorem literalTail_length {value d : Data} {letters cs rest : List Char}
    (h : literalTail value letters cs = .ok (d, rest)) : rest.length ≤ cs.length := by
  fun_induction literalTail value letters cs with
  | case1 => simp_all
  | case2 => simp [stop] at h
  | case3 c cs es ih => have := ih h; simp only [List.length_cons]; omega
  | case4 => simp [stopAfter] at h

/-- The part of the text after a value, shorter than what stood before it. -/
abbrev After (cs : List Char) := { rest : List Char // rest.length < cs.length }

def number.after (negative : Bool) (cs : List Char) : Except Nat (Number × After cs) :=
  match h : number negative cs with
  | .error left => .error left
  | .ok (n, rest) => .ok (n, ⟨rest, number_length h⟩)

def textTail.after (cs : List Char) : Except Nat (String × After cs) :=
  match h : textTail [] cs with
  | .error left => .error left
  | .ok (s, rest) => .ok (s, ⟨rest, textTail_length h⟩)

def literalTail.after (value : Data) (letters : List Char) (first : Char) (cs : List Char) :
    Except Nat (Data × After (first :: cs)) :=
  match h : literalTail value letters cs with
  | .error left => .error left
  | .ok (d, rest) => .ok (d, ⟨rest, by have := literalTail_length h; simp; omega⟩)

def After.mono {cs ds : List Char} (h : cs.length ≤ ds.length) : After cs → After ds
  | ⟨rest, lt⟩ => ⟨rest, by omega⟩

/-- A value that holds no other value. -/
def scalar (c : Char) (rest : List Char) : Except Nat (Data × After (c :: rest)) :=
  have hle : rest.length ≤ (c :: rest).length := by simp
  match c with
  | 'n' => literalTail.after .null ['u', 'l', 'l'] 'n' rest
  | 't' => literalTail.after (.bool true) ['r', 'u', 'e'] 't' rest
  | 'f' => literalTail.after (.bool false) ['a', 'l', 's', 'e'] 'f' rest
  | '"' => do let (s, r) ← textTail.after rest; .ok (.text s, r.mono hle)
  | '-' => do let (n, r) ← number.after true rest; .ok (.number n, r.mono hle)
  | c =>
    if c.isDigit then do
      let (n, r) ← number.after false (c :: rest)
      .ok (.number n, r)
    else stopAfter (c :: rest)

mutual

/-- A value, with at most `depth` containers nested in each other. -/
def value (depth : Nat) (cs : List Char) : Except Nat (Data × After cs) :=
  have hskip := skipBlanks_length cs
  match hcs : skipBlanks cs with
  | [] => stop []
  | '[' :: rest =>
    have hlt : rest.length < cs.length := by rw [hcs] at hskip; exact hskip
    match depth with
    | 0 => stopAfter ('[' :: rest)
    | depth + 1 => do
      let (items, r) ← elements depth true rest
      .ok (.list items, r.mono (by omega))
  | '{' :: rest =>
    have hlt : rest.length < cs.length := by rw [hcs] at hskip; exact hskip
    match depth with
    | 0 => stopAfter ('{' :: rest)
    | depth + 1 => do
      let (entries, r) ← members depth true [] rest
      .ok (.mapping entries, r.mono (by omega))
  | c :: rest => do
    let (d, r) ← scalar c rest
    .ok (d, r.mono (by rw [hcs] at hskip; exact hskip))
termination_by 2 * cs.length

/-- The elements of a list up to its closing bracket; `first` before the first of them. -/
def elements (depth : Nat) (first : Bool) (cs : List Char) :
    Except Nat (List Data × After cs) :=
  have hskip := skipBlanks_length cs
  match hcs : skipBlanks cs with
  | [] => stop []
  | ']' :: rest => .ok ([], ⟨rest, by rw [hcs] at hskip; simp at hskip; omega⟩)
  | ',' :: rest =>
    have hlt : rest.length < cs.length := by rw [hcs] at hskip; simp at hskip; omega
    if first then stopAfter (',' :: rest)
    else
      match skipBlanks rest with
      | ']' :: tail => stopAfter (']' :: tail)
      | _ => do
        let (item, ⟨after, hafter⟩) ← value depth rest
        let (items, r) ← elements depth false after
        .ok (item :: items, r.mono (by omega))
  | c :: rest =>
    if first then do
      have hle : rest.length + 1 ≤ cs.length := by rw [hcs] at hskip; exact hskip
      let (item, ⟨after, hafter⟩) ← value depth (c :: rest)
      have : after.length < cs.length := by simp only [List.length_cons] at hafter; omega
      let (items, r) ← elements depth false after
      .ok (item :: items, r.mono (by omega))
    else stopAfter (c :: rest)
termination_by 2 * cs.length + 1

/-- The members of a mapping up to its closing brace, after those in `known`. A key that occurs
again stops the reading behind it. -/
def members (depth : Nat) (first : Bool) (known : List (Data × Data)) (cs : List Char) :
    Except Nat (List (Data × Data) × After cs) :=
  have hskip := skipBlanks_length cs
  match hcs : skipBlanks cs with
  | [] => stop []
  | '}' :: rest => .ok (known, ⟨rest, by rw [hcs] at hskip; simp at hskip; omega⟩)
  | ',' :: rest =>
    have hlt : rest.length < cs.length := by rw [hcs] at hskip; simp at hskip; omega
    if first then stopAfter (',' :: rest)
    else
      have hskip' := skipBlanks_length rest
      match hrest : skipBlanks rest with
      | '"' :: tail => do
        have : tail.length < cs.length := by rw [hrest] at hskip'; simp at hskip'; omega
        let (entries, r) ← member depth known tail
        .ok (entries, r.mono (by omega))
      | tail => stopAfter tail
  | '"' :: rest =>
    if first then do
      have : rest.length < cs.length := by rw [hcs] at hskip; simp at hskip; omega
      let (entries, r) ← member depth known rest
      .ok (entries, r.mono (by omega))
    else stopAfter ('"' :: rest)
  | c :: rest => stopAfter (c :: rest)
termination_by 2 * cs.length + 1

/-- A member after the opening quote of its key, and the members after it. -/
def member (depth : Nat) (known : List (Data × Data)) (cs : List Char) :
    Except Nat (List (Data × Data) × After cs) := do
  let (key, ⟨rest, hrest⟩) ← textTail.after cs
  have hskip := skipBlanks_length rest
  if Data.hasKey known (.text key) then
    match skipBlanks rest with
    | '}' :: tail => stop tail
    | tail => stop tail
  else
    match hcs : skipBlanks rest with
    | ':' :: tail =>
      have htail : tail.length < cs.length := by rw [hcs] at hskip; simp at hskip; omega
      let (v, ⟨after, hafter⟩) ← value depth tail
      let (entries, r) ← members depth false (known ++ [(.text key, v)]) after
      .ok (entries, r.mono (by omega))
    | tail => stopAfter tail
termination_by 2 * cs.length

end

/-- How deep the containers of a text may be nested. -/
def depthLimit : Nat := 127

/-- A whole text: one value and nothing but blanks after it. -/
def document (cs : List Char) : Except Nat Data :=
  match value depthLimit cs with
  | .error left => .error left
  | .ok (d, ⟨rest, _⟩) =>
    match skipBlanks rest with
    | [] => .ok d
    | tail => stopAfter tail

/-! ## Places -/

/-- A place in a text. Lines count from one; the column is the number of bytes read on the line. -/
structure Place where
  line : Nat
  column : Nat
  deriving DecidableEq, Repr

/-- The place after the given bytes. -/
def Place.after (bytes : List UInt8) : Place :=
  bytes.foldl (fun p b => if b = 10 then ⟨p.line + 1, 0⟩ else ⟨p.line, p.column + 1⟩) ⟨1, 0⟩

/-- Reads a JSON text, or says where reading stopped. -/
def read (s : String) : Except Place Data :=
  match document s.toList with
  | .ok d => .ok d
  | .error left =>
    let bytes := s.toUTF8.toList
    .error (Place.after (bytes.take (bytes.length - left)))

end TypedClient.Json

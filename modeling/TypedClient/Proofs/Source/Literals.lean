import Mathlib.Data.List.Basic
import TypedClient.Source.Literal

/-!
# Reading literals

What a literal stands for, by the escapes that may be in one. Every text is read back from its literal,
whatever characters it has.
-/

namespace TypedClient.Source

namespace Literal

/-! ## Escapes -/

/-- The value of a hexadecimal digit. -/
def digit? (c : Char) : Option Nat := (List.range 16).find? fun n => n.digitChar = c.toLower

/-- The character with a number, unless the number is that of half a pair or too large. -/
def charOf? (n : Nat) : Option Char := if n.isValidChar then some (Char.ofNat n) else none

/-- What a character after a backslash stands for by itself. -/
def escaped? : Char → Option Char
  | '0'  => some '\x00'
  | 't'  => some '\t'
  | 'r'  => some '\r'
  | 'n'  => some '\n'
  | '"'  => some '"'
  | '\'' => some '\''
  | '\\' => some '\\'
  | _    => none

/-- What is read next between the quotes of a literal. -/
inductive Reading where
  | character
  /-- What follows a backslash. -/
  | escape
  /-- The first of two digits, of which there are those of the characters of ASCII. -/
  | firstDigit
  /-- The second of two digits, with the value of the first. -/
  | lastDigit (value : Nat)
  | brace
  /-- A digit or a closing brace, with the value of the digits so far. -/
  | digits (value : Nat)

/-- The text that the characters between the quotes of a literal stand for. -/
def unescape : Reading → List Char → Option (List Char)
  | .character, []           => some []
  | .character, c :: cs      =>
    if c = '\\' then unescape .escape cs
    else if c = '"' then none
    else (unescape .character cs).map (c :: ·)
  | .escape, c :: cs         =>
    match escaped? c with
    | some d => (unescape .character cs).map (d :: ·)
    | none   =>
      if c = 'x' then unescape .firstDigit cs
      else if c = 'u' then unescape .brace cs
      else none
  | .firstDigit, c :: cs     =>
    (digit? c).bind fun d => if d < 8 then unescape (.lastDigit d) cs else none
  | .lastDigit value, c :: cs =>
    (digit? c).bind fun d => (unescape .character cs).map (Char.ofNat (16 * value + d) :: ·)
  | .brace, c :: cs          => if c = '{' then unescape (.digits 0) cs else none
  | .digits value, c :: cs   =>
    if c = '}' then (charOf? value).bind fun d => (unescape .character cs).map (d :: ·)
    else (digit? c).bind fun d => unescape (.digits (16 * value + d)) cs
  | _, []                    => none

/-- The text that a literal stands for. -/
def read? (s : String) : Option String :=
  match s.toList with
  | '"' :: cs =>
    if cs.getLast? = some '"' then (unescape .character cs.dropLast).map String.ofList else none
  | _ => none

/-! ## Reading back -/

variable {c : Char} {cs : List Char} {n : Nat}

theorem digit?_digitChar : ∀ n < 16, digit? n.digitChar = some n := by decide

theorem digitChar_ne_brace : ∀ n < 16, n.digitChar ≠ '}' := by decide

theorem charOf?_toNat (c : Char) : charOf? c.toNat = some c := by
  have hvalid : c.toNat.isValidChar := c.valid
  rw [charOf?, if_pos hvalid, Char.ofNat_toNat]

theorem unescape_digit (h : n < 16) (value : Nat) :
    unescape (.digits value) (n.digitChar :: cs) = unescape (.digits (16 * value + n)) cs := by
  rw [unescape, if_neg (digitChar_ne_brace n h), digit?_digitChar n h, Option.bind_some]

/-- The digits of a number give the number. -/
theorem unescape_toDigits (n : Nat) (cs : List Char) :
    unescape (.digits 0) (Nat.toDigits 16 n ++ cs) = unescape (.digits n) cs := by
  induction n using Nat.strongRecOn generalizing cs with
  | ind n ih =>
    by_cases hsmall : n < 16
    · rw [Nat.toDigits_of_lt_base hsmall, List.singleton_append, unescape_digit hsmall, Nat.mul_zero,
        Nat.zero_add]
    · have hrest : n / 16 < n := by omega
      rw [Nat.toDigits_of_base_le (by decide) (by omega), List.append_assoc, ih _ hrest,
        List.singleton_append, unescape_digit (Nat.mod_lt n (by decide)), Nat.div_add_mod]

theorem unescape_codeEscape (c : Char) (cs : List Char) :
    unescape .character (codeEscape c ++ cs) = (unescape .character cs).map (c :: ·) := by
  have hcode : codeEscape c ++ cs = '\\' :: 'u' :: '{' :: (Nat.toDigits 16 c.toNat ++ '}' :: cs) := by
    simp [codeEscape]
  have hdigits : unescape .character (codeEscape c ++ cs) =
      unescape (.digits 0) (Nat.toDigits 16 c.toNat ++ '}' :: cs) := by
    rw [hcode]
    rfl
  rw [hdigits, unescape_toDigits, unescape, if_pos rfl, charOf?_toNat, Option.bind_some]

/-- A character is read back from the way it is written, whatever follows it. -/
theorem unescape_escapeChar (next : Option Char) (c : Char) (cs : List Char) :
    unescape .character (escapeChar next c ++ cs) = (unescape .character cs).map (c :: ·) := by
  unfold escapeChar
  split_ifs with hnull hdigit htab hreturn hline hquote hslash hprintable
  -- a zero has two forms, so that it is not read with a digit that follows
  · subst hnull
    rfl
  · subst hnull
    rfl
  · subst htab
    rfl
  · subst hreturn
    rfl
  · subst hline
    rfl
  · subst hquote
    rfl
  · subst hslash
    rfl
  · rw [List.singleton_append, unescape, if_neg hslash, if_neg hquote]
  · exact unescape_codeEscape c cs

theorem unescape_escapeChars (cs : List Char) : unescape .character (escapeChars cs) = some cs := by
  induction cs with
  | nil => rfl
  | cons c cs ih => rw [escapeChars, unescape_escapeChar, ih, Option.map_some]

theorem read?_literal (s : String) : read? (literal s) = some s := by
  have hchars : (literal s).toList = '"' :: (escapeChars s.toList ++ ['"']) := String.toList_ofList
  rw [read?, hchars]
  simp [unescape_escapeChars]

end Literal

end TypedClient.Source

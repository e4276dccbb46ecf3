import TypedClient.Text.Printable

/-! # Text literals

How a text is written between quotes in the generated source.
-/

namespace TypedClient.Source

/-- The code point of a character in braces, after the sign of an escape. -/
def codeEscape (c : Char) : List Char :=
  "\\u\x7b".toList ++ Nat.toDigits 16 c.toNat ++ ['\x7d']

/-- A character between quotes; `next` follows it. A zero before a digit is written so that the two
are not read as one number. -/
def escapeChar (next : Option Char) (c : Char) : List Char :=
  if c = '\x00' then
    if next.any fun d => '0' ≤ d ∧ d ≤ '7' then ['\\', 'x', '0', '0'] else ['\\', '0']
  else if c = '\t' then ['\\', 't']
  else if c = '\r' then ['\\', 'r']
  else if c = '\n' then ['\\', 'n']
  else if c = '"' then ['\\', '"']
  else if c = '\\' then ['\\', '\\']
  else if Text.isPrintable c then [c]
  else codeEscape c

def escapeChars : List Char → List Char
  | []      => []
  | c :: cs => escapeChar cs.head? c ++ escapeChars cs

/-- A text as a literal. -/
def literal (s : String) : String :=
  String.ofList ('"' :: escapeChars s.toList ++ ['"'])

end TypedClient.Source

/-! # Digests of texts

A number of 64 bits for a text: SipHash with one round for each block and three at the end, under a key
of zeros. Different texts have different digests as a rule, but not always.
-/

namespace TypedClient.Text

/-- Four words that blocks of eight bytes are mixed into. -/
structure Mix where
  a : UInt64
  b : UInt64
  c : UInt64
  d : UInt64

namespace Mix

/-- The words before the first block. -/
def start : Mix :=
  ⟨0x736f6d6570736575, 0x646f72616e646f6d, 0x6c7967656e657261, 0x7465646279746573⟩

def rotate (w n : UInt64) : UInt64 := (w <<< n) ||| (w >>> (64 - n))

/-- Mixes the words once. -/
def round (m : Mix) : Mix :=
  let a := m.a + m.b
  let b := rotate m.b 13 ^^^ a
  let a := rotate a 32
  let c := m.c + m.d
  let d := rotate m.d 16 ^^^ c
  let a := a + d
  let d := rotate d 21 ^^^ a
  let c := c + b
  let b := rotate b 17 ^^^ c
  ⟨a, b, rotate c 32, d⟩

/-- The word of some bytes, the lowest first. -/
def word (bytes : List UInt8) : UInt64 :=
  bytes.foldr (fun byte w => (w <<< 8) ||| byte.toUInt64) 0

def block (m : Mix) (w : UInt64) : Mix :=
  let m := round { m with d := m.d ^^^ w }
  { m with a := m.a ^^^ w }

/-- Takes in bytes block by block. The last block holds the rest, and `length` in its highest byte. -/
def bytes (length : UInt64) (m : Mix) : List UInt8 → Mix
  | b₀ :: b₁ :: b₂ :: b₃ :: b₄ :: b₅ :: b₆ :: b₇ :: rest =>
    bytes length (m.block (word [b₀, b₁, b₂, b₃, b₄, b₅, b₆, b₇])) rest
  | rest => m.block (word rest ||| (length <<< 56))

def finish (m : Mix) : UInt64 :=
  let m := round (round (round { m with c := m.c ^^^ 0xff }))
  m.a ^^^ m.b ^^^ m.c ^^^ m.d

end Mix

/-- The digest of a text. A byte that no text has marks its end. -/
def digest (text : String) : UInt64 :=
  let bytes := text.toUTF8.data.toList ++ [0xff]
  (Mix.start.bytes bytes.length.toUInt64 bytes).finish

end TypedClient.Text

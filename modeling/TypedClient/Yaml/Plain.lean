import TypedClient.Data.Value

/-! # Plain scalars as data

Which plain scalars are `null`, flags and numbers. All others are texts.
-/

namespace TypedClient.Yaml

/-- What a scalar stands for; `outOfRange` is a whole number that has no place in data. -/
inductive Meaning where
  | data (d : Data)
  | outOfRange

def null? (s : String) : Bool := ["null", "Null", "NULL", "~"].contains s

def flag? (s : String) : Option Bool :=
  if ["true", "True", "TRUE"].contains s then some true
  else if ["false", "False", "FALSE"].contains s then some false
  else none

/-! ## Whole numbers -/

def digitValue? (base : Nat) (c : Char) : Option Nat :=
  let value :=
    if c.isDigit then c.toNat - '0'.toNat
    else if c.isLower then c.toNat - 'a'.toNat + 10
    else if c.isUpper then c.toNat - 'A'.toNat + 10
    else base
  if value < base then some value else none

/-- The value of one or more digits. -/
def digits? (base : Nat) (cs : List Char) : Option Nat :=
  if cs.isEmpty then none
  else cs.foldlM (fun n c => (digitValue? base c).map (base * n + ·)) 0

/-- Zeros that lead a longer run of digits make it a text. -/
def leadingZero : List Char → Bool
  | '0' :: c :: cs => (c :: cs).all (·.isDigit)
  | _              => false

/-- A whole number without sign, in base ten or one that its first two characters tell. -/
def magnitude? : List Char → Option Nat
  | '0' :: 'x' :: cs => digits? 16 cs
  | '0' :: 'o' :: cs => digits? 8 cs
  | '0' :: 'b' :: cs => digits? 2 cs
  | cs               => if leadingZero cs then none else digits? 10 cs

/-- A whole number with a sign or none. -/
def whole? : List Char → Option Int
  | '+' :: cs => (magnitude? cs).map Int.ofNat
  | '-' :: cs => (magnitude? cs).map fun n => -Int.ofNat n
  | cs        => (magnitude? cs).map Int.ofNat

/-- Whole numbers of data fit 64 bits, with a sign only if negative. Those that fit 128 bits are out
of range, and longer ones are no whole numbers. -/
def wholeMeaning (n : Int) : Option Meaning :=
  if -Int.pow 2 63 ≤ n ∧ n < Int.pow 2 64 then some (.data (.number (.int n)))
  else if -Int.pow 2 127 ≤ n ∧ n < Int.pow 2 128 then some .outOfRange
  else none

/-! ## Reals -/

/-- The digits of an exponent with its sign. -/
def exponent? : List Char → Option Int
  | '+' :: cs => (digits? 10 cs).map Int.ofNat
  | '-' :: cs => (digits? 10 cs).map fun n => -Int.ofNat n
  | cs        => (digits? 10 cs).map Int.ofNat

/-- A decimal without sign: digits with a point among or beside them, and an exponent or none. -/
def decimal? (cs : List Char) : Option Decimal :=
  let isMark (c : Char) : Bool := c == 'e' || c == 'E'
  let (mantissa, tail) := (cs.takeWhile (!isMark ·), cs.dropWhile (!isMark ·))
  let whole := mantissa.takeWhile (·.isDigit)
  let fraction? : Option (List Char) :=
    match mantissa.dropWhile (·.isDigit) with
    | []          => some []
    | '.' :: frac => if frac.all (·.isDigit) then some frac else none
    | _           => none
  let exponent? : Option Int :=
    match tail with
    | []     => some 0
    | _ :: e => exponent? e
  match fraction?, exponent? with
  | some fraction, some exponent =>
    (digits? 10 (whole ++ fraction)).map fun n => ⟨n, exponent - fraction.length⟩
  | _, _ => none

/-- A finite real without sign. -/
def finite? (cs : List Char) : Option Float :=
  (decimal? cs).bind fun d => let x := d.toFloat; if x.isFinite then some x else none

/-- A real, with a sign or none. -/
def real? (s : String) : Option Float :=
  if [".inf", ".Inf", ".INF", "+.inf", "+.Inf", "+.INF"].contains s then some (1.0 / 0.0)
  else if ["-.inf", "-.Inf", "-.INF"].contains s then some (-1.0 / 0.0)
  else if [".nan", ".NaN", ".NAN"].contains s then some (0.0 / 0.0)
  else
    match s.toList with
    | '+' :: cs => finite? cs
    | '-' :: cs => (finite? cs).map fun x => -x
    | cs        => finite? cs

/-- Whether a sign, if any, is followed by a leading zero. -/
def signedLeadingZero : List Char → Bool
  | '+' :: cs => leadingZero cs
  | '-' :: cs => leadingZero cs
  | cs        => leadingZero cs

/-! ## Meaning -/

/-- What a plain scalar without a tag stands for. -/
def plainMeaning (s : String) : Meaning :=
  if s.isEmpty || null? s then .data .null
  else
    -- more digits than a whole number can have are those of a real
    match flag? s, (whole? s.toList).bind wholeMeaning with
    | some b, _      => .data (.bool b)
    | none,   some m => m
    | none,   none   =>
      match if signedLeadingZero s.toList then none else real? s with
      | some x => .data (.number (.real x))
      | none   => .data (.text s)

/-- The tags that ask for a kind of scalar. -/
def coreTag (name : String) : String := "tag:yaml.org,2002:" ++ name

/-- What a scalar with a tag of the core schema stands for; `none` if it is not of that kind. -/
def taggedMeaning (tag s : String) : Option Meaning :=
  if tag = coreTag "bool" then (flag? s).map fun b => .data (.bool b)
  else if tag = coreTag "int" then (whole? s.toList).bind wholeMeaning
  else if tag = coreTag "float" then (real? s).map fun x => .data (.number (.real x))
  else if tag = coreTag "null" then if null? s then some (.data .null) else none
  else some (.data (.text s))

end TypedClient.Yaml

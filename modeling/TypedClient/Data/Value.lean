import TypedClient.Decimal.Written

/-! # Document data

The data that a document text stands for, whatever notation it is written in. Keys are values of
any kind until `withTextKeys` has made the usual ones texts.
-/

namespace TypedClient

/-- A number keeps whether it was written as a whole number. -/
inductive Number where
  | int (n : Int)
  | real (x : Float)

def Number.toText (style : RealStyle) : Number → String
  | .int n  => toString n
  | .real x =>
    if x.isNaN then ".nan"
    else if x.isInf then (if x < 0 then "-.inf" else ".inf")
    else style.write x

/-- Whether two numbers are one key: any two that are not a number are, and so are both zeros. -/
def Number.sameKey : Number → Number → Bool
  | .int m,  .int n  => m == n
  | .real x, .real y => x == y || (x.isNaN && y.isNaN)
  | _,       _       => false

/-- A node of a document. A mapping keeps the order in which its entries are written. -/
inductive Data where
  | null
  | bool (b : Bool)
  | number (n : Number)
  | text (s : String)
  | list (items : List Data)
  | mapping (entries : List (Data × Data))
  | tagged (tag : String) (value : Data)

instance : Inhabited Data := ⟨.null⟩

namespace Data

def asText? : Data → Option String
  | .text s => some s
  | _       => none

def entries? : Data → Option (List (Data × Data))
  | .mapping entries => some entries
  | _                => none

/-- The value of a text key. -/
def lookup (key : String) : List (Data × Data) → Option Data
  | [] => none
  | (.text k, v) :: rest => if k = key then some v else lookup key rest
  | _ :: rest => lookup key rest

def get? (d : Data) (key : String) : Option Data :=
  d.entries?.bind (lookup key)

/-! ## Equality of keys -/

mutual

/-- Whether two nodes are the same key; the order of the entries of a mapping does not matter. -/
def sameKey : Data → Data → Bool
  | .null, .null => true
  | .bool a, .bool b => a == b
  | .number a, .number b => a.sameKey b
  | .text a, .text b => a == b
  | .list as, .list bs => as.length == bs.length && sameItems as bs
  | .mapping as, .mapping bs => as.length == bs.length && sameEntries as bs
  | .tagged s a, .tagged t b => s == t && sameKey a b
  | _, _ => false

def sameItems : List Data → List Data → Bool
  | a :: as, b :: bs => sameKey a b && sameItems as bs
  | _, _ => true

def sameEntries : List (Data × Data) → List (Data × Data) → Bool
  | (k, v) :: as, bs => (bs.any fun e => sameKey k e.1 && sameKey v e.2) && sameEntries as bs
  | [], _ => true

end

/-- Whether `key` is already a key of `entries`. -/
def hasKey (entries : List (Data × Data)) (key : Data) : Bool :=
  entries.any fun e => e.1.sameKey key

/-! ## Text keys -/

/-- Numbers and flags become texts as keys; other keys stay what they are. -/
def textKey : Data → Data
  | .number n => .text (n.toText .key)
  | .bool b   => .text (toString b)
  | key       => key

/-- Gives `key` the value `value`: in place when the key is known, else at the end. -/
def putEntry (entries : List (Data × Data)) (key value : Data) : List (Data × Data) :=
  match entries with
  | [] => [(key, value)]
  | (k, v) :: rest => if k.sameKey key then (k, value) :: rest else (k, v) :: putEntry rest key value

mutual

/-- Makes number and flag keys texts at every depth and drops tags from values. -/
def withTextKeys : Data → Data
  | .list items      => .list (itemsWithTextKeys items)
  | .mapping entries =>
    .mapping ((entriesWithTextKeys entries).foldl (fun known e => putEntry known e.1 e.2) [])
  | .tagged _ value  => withTextKeys value
  | value            => value

def itemsWithTextKeys : List Data → List Data
  | []      => []
  | d :: ds => withTextKeys d :: itemsWithTextKeys ds

def entriesWithTextKeys : List (Data × Data) → List (Data × Data)
  | []           => []
  | (k, v) :: es => (textKey k, withTextKeys v) :: entriesWithTextKeys es

end

end Data

end TypedClient

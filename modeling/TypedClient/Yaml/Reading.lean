import TypedClient.Failure
import TypedClient.Yaml.Node
import TypedClient.Yaml.Plain

/-! # YAML text

Reads a YAML text as document data. Reused nodes are copied in. A fault of the text has no exact
place; what concerns the text as a whole is a fault of the document's root.
-/

namespace TypedClient.Yaml

mutual

/-- The anchored nodes of a tree with their numbers, in the order in which they begin. -/
def Node.anchored : Node → List (Nat × Node)
  | .scalar (some n) tag text plain => [(n, .scalar (some n) tag text plain)]
  | .sequence (some n) tag items =>
    (n, .sequence (some n) tag items) :: itemsAnchored items
  | .sequence none _ items => itemsAnchored items
  | .mapping (some n) tag entries =>
    (n, .mapping (some n) tag entries) :: entriesAnchored entries
  | .mapping none _ entries => entriesAnchored entries
  | _ => []

def itemsAnchored : List Node → List (Nat × Node)
  | []      => []
  | n :: ns => n.anchored ++ itemsAnchored ns

def entriesAnchored : List (Node × Node) → List (Nat × Node)
  | []           => []
  | (k, v) :: es => k.anchored ++ v.anchored ++ entriesAnchored es

end

mutual

/-- How many marks a tree takes to write: two for a list or mapping, one for anything else. -/
def Node.marks : Node → Nat
  | .sequence _ _ items  => 2 + itemsMarks items
  | .mapping _ _ entries => 2 + entriesMarks entries
  | _                    => 1

def itemsMarks : List Node → Nat
  | []      => 0
  | n :: ns => n.marks + itemsMarks ns

def entriesMarks : List (Node × Node) → Nat
  | []           => 0
  | (k, v) :: es => k.marks + v.marks + entriesMarks es

end

/-- Data under way: how many more nodes may be reused, or the place of a fault. -/
abbrev Building := StateT Nat (Except Location)

namespace Building

def fault {α : Type} : Building α := throw Location.yaml

/-- Counts one more node that is reused. -/
def countReuse : Building Unit := do
  match ← get with
  | 0     => throw Location.root
  | n + 1 => set n

def meaning : Option Meaning → Building Data
  | some (.data d) => pure d
  | _              => fault

/-- The local name of a tag, that is one with an exclamation mark. -/
def localTag? (tag : String) : Option String :=
  match tag.toList with
  | ['!']      => some "!"
  | '!' :: cs  => some (String.ofList cs)
  | _          => none

/-- Data under a local tag. The mark alone is no tag. -/
def tagged (tag : Option String) (value : Building Data) : Building Data :=
  match tag.bind localTag? with
  | none     => value
  | some "!" => fault
  | some t   => .tagged t <$> value

/-- A scalar. A local tag leaves open what it is; any other tag decides it. -/
def scalar (tag : Option String) (text : String) (plain : Bool) : Building Data :=
  match tag with
  | none => meaning (some (if plain then plainMeaning text else .data (.text text)))
  | some t =>
    match localTag? t with
    | some _ =>
      tagged tag (meaning (some (if plain then plainMeaning text else .data (.text text))))
    | none => meaning (taggedMeaning t text)

mutual

/-- The data of a node. Lists and mappings are nested in each other at most `depth` deep. -/
def node (anchored : List (Nat × Node)) (depth : Nat) (n : Node) : Building Data :=
  match n with
  | .fault => fault
  | .scalar _ tag text plain => scalar tag text plain
  | .sequence _ tag ns => tagged tag (list anchored depth ns)
  | .mapping _ tag es => tagged tag (mapping anchored depth es)
  | .reuse number => do
    countReuse
    match anchored.lookup number with
    | some (.scalar _ tag text plain) => scalar tag text plain
    | some (.sequence _ tag ns)       => tagged tag (list anchored depth ns)
    | some (.mapping _ tag es)        => tagged tag (mapping anchored depth es)
    | _                               => fault
termination_by (depth, 1, 0)

def list (anchored : List (Nat × Node)) (depth : Nat) (ns : List Node) : Building Data :=
  match depth with
  | 0         => fault
  | depth + 1 => .list <$> items anchored depth ns
termination_by (depth, 0, 0)

def items (anchored : List (Nat × Node)) (depth : Nat) (ns : List Node) :
    Building (List Data) :=
  match ns with
  | []      => pure []
  | n :: ns => do
    let d ← node anchored depth n
    pure (d :: (← items anchored depth ns))
termination_by (depth, 2, ns.length)

def mapping (anchored : List (Nat × Node)) (depth : Nat) (es : List (Node × Node)) :
    Building Data :=
  match depth with
  | 0         => fault
  | depth + 1 => .mapping <$> entries anchored depth [] es
termination_by (depth, 0, 0)

/-- The entries of a mapping after those in `known`; a key must not occur again. -/
def entries (anchored : List (Nat × Node)) (depth : Nat) (known : List (Data × Data))
    (es : List (Node × Node)) : Building (List (Data × Data)) :=
  match es with
  | []           => pure known.reverse
  | (k, v) :: es => do
    let key ← node anchored depth k
    if Data.hasKey known key then fault
    let value ← node anchored depth v
    entries anchored depth ((key, value) :: known) es
termination_by (depth, 2, es.length)

end

end Building

/-- How deep lists and mappings may be nested. -/
def depthLimit : Nat := 128

/-- Reads a YAML text of one document, or says where it is at fault. -/
def read (s : String) : Except Location Data :=
  let opening := Opening.ofTokens (tokens s)
  let anchored := opening.node.anchored.reverse
  let limit := 100 * opening.node.marks
  match (Building.node anchored depthLimit opening.node).run limit with
  | .error place  => .error place
  | .ok (data, _) =>
    match opening.ending with
    | .textEnd => .ok data
    | .fault   => .error .yaml
    | .more    => .error .root

end TypedClient.Yaml

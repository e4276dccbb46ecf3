import TypedClient.Yaml.Scanner

/-! # Nodes

The tree of a YAML document. Anchored nodes have a number, by which other places reuse them. Where
the tokens stop making sense the tree has a fault, and so have all nodes that are still open.
-/

namespace TypedClient.Yaml

inductive Node where
  | scalar (anchor : Option Nat) (tag : Option String) (text : String) (plain : Bool)
  | sequence (anchor : Option Nat) (tag : Option String) (items : List Node)
  | mapping (anchor : Option Nat) (tag : Option String) (entries : List (Node × Node))
  /-- The anchored node with that number. -/
  | reuse (anchor : Nat)
  | fault

instance : Inhabited Node := ⟨.fault⟩

/-- An empty node. -/
def Node.empty : Node := .scalar none none "" true

/-! ## Parsing -/

/-- A document under way. -/
structure Parser where
  rest : List Token
  /-- The handles for tags with what they stand for. -/
  handles : List (String × String)
  /-- The names of anchors with the number of the node that had the name last. -/
  anchors : List (String × Nat) := []

abbrev Parse := StateM Parser

namespace Parse

/-- The next token. -/
def peek : Parse Token := do
  pure ((← get).rest.headD .fault)

def skip : Parse Unit := modify fun p => { p with rest := p.rest.drop 1 }

/-- The next token after skipping one. -/
def skipThenPeek : Parse Token := do
  skip
  peek

/-- Stops for good. -/
def stop : Parse Node := do
  modify fun p => { p with rest := [.fault] }
  pure .fault

def stopList : Parse (List Node) := do pure [← stop]

def stopEntries : Parse (List (Node × Node)) := do pure [(← stop, .fault)]

/-- The number for a node with the given name. Names are numbered by how many there are, so a node
that takes over a name has the number of the next new name. -/
def number (name : String) : Parse Nat := do
  let p ← get
  let number := p.anchors.length
  set { p with anchors := (name, number) :: p.anchors.filter (·.1 ≠ name) }
  pure number

/-- The node that a name stands for. -/
def reuse (name : String) : Parse Node := do
  match (← get).anchors.lookup name with
  | some number => pure (.reuse number)
  | none        => stop

/-- The anchor and the tag before a node, in either order. -/
def properties : Parse (Option String × Option (String × String)) := do
  match ← peek with
  | .anchor name =>
    match ← skipThenPeek with
    | .tag handle suffix => do skip; pure (some name, some (handle, suffix))
    | _                  => pure (some name, none)
  | .tag handle suffix =>
    match ← skipThenPeek with
    | .anchor name => do skip; pure (some name, some (handle, suffix))
    | _            => pure (none, some (handle, suffix))
  | _ => pure (none, none)

/-- The full text of a tag; none if its handle is unknown. -/
def fullTag (handle suffix : String) : Parse (Option String) := do
  if handle.isEmpty then pure (some suffix)
  else pure (((← get).handles.lookup handle).map (· ++ suffix))

mutual

/-- A node. Blocks may begin in it if `inBlock`; `indentless` if a list of entries may begin without
being indented. `fuel` bounds the calls. -/
def node (fuel : Nat) (inBlock indentless : Bool) : Parse Node :=
  match fuel with
  | 0 => stop
  | fuel + 1 => do
    if let .reuse name := ← peek then
      skip
      return ← reuse name
    let (name, shortTag) ← properties
    let mut tag := none
    if let some (handle, suffix) := shortTag then
      match ← fullTag handle suffix with
      | some t => tag := some t
      | none   => return ← stop
    -- the number is given before the contents are read, which may reuse the node
    let anchored (make : Option Nat → Parse Node) : Parse Node := do
      match name with
      | some name => make (some (← number name))
      | none      => make none
    match ← peek with
    | .entry =>
      if indentless then
        anchored fun a => return .sequence a tag (← indentlessItems fuel)
      else emptyNode name tag
    | .scalar text plain => do
      skip
      anchored fun a => pure (.scalar a (tag.filter (· ≠ "!")) text plain)
    | .flowSequence  => do skip; anchored fun a => return .sequence a tag (← flowItems fuel true)
    | .flowMapping   => do skip; anchored fun a => return .mapping a tag (← flowEntries fuel true)
    | .blockSequence =>
      if inBlock then do skip; anchored fun a => return .sequence a tag (← blockItems fuel)
      else emptyNode name tag
    | .blockMapping  =>
      if inBlock then do skip; anchored fun a => return .mapping a tag (← blockEntries fuel)
      else emptyNode name tag
    | _ => emptyNode name tag

/-- A node of which there is no more than an anchor or a tag; without those it is a fault. -/
def emptyNode (name tag : Option String) : Parse Node := do
  match name, tag with
  | none,      none => stop
  | none,      tag  => pure (.scalar none tag "" true)
  | some name, tag  => return .scalar (some (← number name)) tag "" true

/-- The items of a list that is indented by itself. -/
def blockItems (fuel : Nat) : Parse (List Node) :=
  match fuel with
  | 0 => stopList
  | fuel + 1 => do
    match ← peek with
    | .entry =>
      let item ←
        match ← skipThenPeek with
        | .entry | .blockEnd => pure Node.empty
        | _                  => node fuel true false
      pure (item :: (← blockItems fuel))
    | .blockEnd => do skip; pure []
    | _ => stopList

/-- The items of a list in a mapping that is not indented by itself. -/
def indentlessItems (fuel : Nat) : Parse (List Node) :=
  match fuel with
  | 0 => stopList
  | fuel + 1 => do
    match ← peek with
    | .entry =>
      let item ←
        match ← skipThenPeek with
        | .entry | .key | .value | .blockEnd => pure Node.empty
        | _                                  => node fuel true false
      pure (item :: (← indentlessItems fuel))
    | .fault => stopList
    | _ => pure []

/-- The key or value of a block mapping after its mark. -/
def blockPart (fuel : Nat) : Parse Node := do
  match fuel with
  | 0 => stop
  | fuel + 1 =>
    match ← skipThenPeek with
    | .key | .value | .blockEnd => pure Node.empty
    | _                         => node fuel true true

def blockEntries (fuel : Nat) : Parse (List (Node × Node)) :=
  match fuel with
  | 0 => stopEntries
  | fuel + 1 => do
    match ← peek with
    | .key =>
      let key ← blockPart fuel
      let value ←
        match ← peek with
        | .value => blockPart fuel
        | _      => pure Node.empty
      pure ((key, value) :: (← blockEntries fuel))
    | .blockEnd => do skip; pure []
    | _ => stopEntries

/-- The items of a list in brackets. -/
def flowItems (fuel : Nat) (first : Bool) : Parse (List Node) :=
  match fuel with
  | 0 => stopList
  | fuel + 1 => do
    if (← peek) matches .flowSequenceEnd then
      skip
      return []
    if !first then
      if !((← peek) matches .comma) then return ← stopList
      skip
    match ← peek with
    | .key =>
      let entry ← flowPair fuel
      pure (.mapping none none [entry] :: (← flowItems fuel false))
    | .flowSequenceEnd => do skip; pure []
    | _ =>
      let item ← node fuel false false
      pure (item :: (← flowItems fuel false))

/-- A single key and value as an item of a list. A mark that stands in the place of the key is
passed over. -/
def flowPair (fuel : Nat) : Parse (Node × Node) :=
  match fuel with
  | 0 => do pure (← stop, .fault)
  | fuel + 1 => do
    let key ←
      match ← skipThenPeek with
      | .value | .comma | .flowSequenceEnd => do skip; pure Node.empty
      | _                                  => node fuel false false
    let value ←
      match ← peek with
      | .value =>
        match ← skipThenPeek with
        | .comma | .flowSequenceEnd => pure Node.empty
        | _                         => node fuel false false
      | _ => pure Node.empty
    pure (key, value)

/-- The entries of a mapping in braces. -/
def flowEntries (fuel : Nat) (first : Bool) : Parse (List (Node × Node)) :=
  match fuel with
  | 0 => stopEntries
  | fuel + 1 => do
    if (← peek) matches .flowMappingEnd then
      skip
      return []
    if !first then
      if !((← peek) matches .comma) then return ← stopEntries
      skip
    match ← peek with
    | .key =>
      let key ←
        match ← skipThenPeek with
        | .value | .comma | .flowMappingEnd => pure Node.empty
        | _                                 => node fuel false false
      let value ←
        match ← peek with
        | .value =>
          match ← skipThenPeek with
          | .comma | .flowMappingEnd => pure Node.empty
          | _                        => node fuel false false
        | _ => pure Node.empty
      pure ((key, value) :: (← flowEntries fuel false))
    | .flowMappingEnd => do skip; pure []
    | _ =>
      let key ← node fuel false false
      pure ((key, Node.empty) :: (← flowEntries fuel false))

end

/-! ## Documents -/

/-- The handles that every document has, unless it gives them another meaning. -/
def usualHandles : List (String × String) := [("!", "!"), ("!!", "tag:yaml.org,2002:")]

/-- Reads the directives of a document: at most one version, which must be known, and handles that
are pairwise different. -/
def directives (seenVersion : Bool) (handles : List (String × String)) :
    List Token → Option (List (String × String) × List Token)
  | .version major minor :: ts =>
    if seenVersion || major ≠ 1 || !(minor = 1 || minor = 2) then none
    else directives true handles ts
  | .tagHandle handle lead :: ts =>
    if handles.any (·.1 = handle) then none
    else directives seenVersion (handles ++ [(handle, lead)]) ts
  | ts => some (handles, ts)

/-- The text of a node that ends where a document ends. -/
def root (fuel : Nat) : Parse Node := do
  match ← peek with
  | .version .. | .tagHandle .. | .documentStart | .documentEnd | .textEnd => pure Node.empty
  | _ => node fuel true false

/-- Whether nothing but ends of documents and the end of the text follows. -/
def onlyEnds : List Token → Bool
  | [.textEnd]         => true
  | .documentEnd :: ts => onlyEnds ts
  | _                  => false

end Parse

/-- What follows the first document of a text. -/
inductive Ending where
  | textEnd
  | fault
  /-- Another document, or something that is none. -/
  | more
  deriving DecidableEq

/-- The first document of a text. -/
structure Opening where
  node : Node
  ending : Ending

/-- The first document of a text by its tokens. A text without documents opens with an empty
node. -/
def Opening.ofTokens (ts : List Token) : Opening :=
  let fuel := 4 * ts.length + 4
  let read (handles : List (String × String)) (root : Parse Node) (ts : List Token) : Opening :=
    let (node, p) := root.run { rest := ts, handles := handles ++ Parse.usualHandles }
    match p.rest with
    | .fault :: _ => ⟨node, .fault⟩
    | rest        => ⟨node, if Parse.onlyEnds rest then .textEnd else .more⟩
  match ts with
  | [.textEnd] => ⟨Node.empty, .textEnd⟩
  | .version .. :: _ | .tagHandle .. :: _ | .documentStart :: _ =>
    match Parse.directives false [] ts with
    | some (handles, .documentStart :: rest) => read handles (Parse.root fuel) rest
    | _ => ⟨.fault, .fault⟩
  | _ => read [] (Parse.node fuel true false) ts

end TypedClient.Yaml

import TypedClient.Generation

/-! # Command line options

What the words after the name of the program ask for.
-/

namespace TypedClient.CommandLine

structure Options where
  /-- The paths of the documents, at least one. -/
  documents : List String
  /-- The directory that the clients are written to. -/
  outDirectory : String := "."
  /-- Stands in for the endpoints that the documents declare. -/
  baseEndpoint : Option String := none
  clientName : String := Client.defaultName
  /-- Only report; write nothing. -/
  check : Bool := false
  /-- How much more than usual is logged. -/
  verbosity : Nat := 0
  deriving DecidableEq, Repr

/-- What a command line asks for. -/
inductive Request where
  | run (o : Options)
  | help
  | version
  /-- The command line cannot be understood. -/
  | misuse
  deriving DecidableEq, Repr

/-! ## Single options -/

/-- An option that stands alone. -/
inductive Switch where
  | check
  | verbose
  | help
  | version

/-- An option that takes a value. -/
inductive Setting where
  | outDirectory
  | baseEndpoint
  | clientName

inductive OptionName where
  | switch (s : Switch)
  | setting (s : Setting)

namespace OptionName

/-- The option after two hyphens. -/
def ofLong? : String → Option OptionName
  | "check"       => some (.switch .check)
  | "verbose"     => some (.switch .verbose)
  | "help"        => some (.switch .help)
  | "version"     => some (.switch .version)
  | "out-dir"     => some (.setting .outDirectory)
  | "base-url"    => some (.setting .baseEndpoint)
  | "client-name" => some (.setting .clientName)
  | _             => none

/-- The option of one letter after a hyphen. -/
def ofShort? : Char → Option OptionName
  | 'v' => some (.switch .verbose)
  | 'h' => some (.switch .help)
  | 'V' => some (.switch .version)
  | 'o' => some (.setting .outDirectory)
  | _   => none

end OptionName

/-- What has been read of a command line. -/
structure Partial where
  /-- Last document first. -/
  documents : List String := []
  outDirectory : Option String := none
  baseEndpoint : Option String := none
  clientName : Option String := none
  check : Bool := false
  verbosity : Nat := 0

namespace Partial

/-- Adds the path of a document, which is not empty. -/
def addDocument (s : Partial) (path : String) : Option Partial :=
  if path.isEmpty then none else some { s with documents := path :: s.documents }

/-- Gives an option its value, which it gets only once. A directory has a name. -/
def give (s : Partial) (o : Setting) (value : String) : Option Partial :=
  match o with
  | .outDirectory =>
    if s.outDirectory.isSome || value.isEmpty then none
    else some { s with outDirectory := some value }
  | .baseEndpoint =>
    if s.baseEndpoint.isSome then none else some { s with baseEndpoint := some value }
  | .clientName   =>
    if s.clientName.isSome then none else some { s with clientName := some value }

def request (s : Partial) : Request :=
  if s.documents.isEmpty then .misuse
  else .run {
    documents := s.documents.reverse
    outDirectory := s.outDirectory.getD "."
    baseEndpoint := s.baseEndpoint
    clientName := s.clientName.getD Client.defaultName
    check := s.check
    verbosity := s.verbosity }

end Partial

/-! ## Words -/

/-- The state after a word: the words go on, the word needs a value, or all is said. -/
inductive Step where
  | next (s : Partial)
  | needsValue (s : Partial) (o : Setting)
  | stop (r : Request)

namespace Step

def ofOption : Option Partial → Step
  | some s => .next s
  | none   => .stop .misuse

/-- An option that stands alone; that of a check stands there once. -/
def ofSwitch (s : Partial) : Switch → Step
  | .check   => if s.check then .stop .misuse else .next { s with check := true }
  | .verbose => .next { s with verbosity := s.verbosity + 1 }
  | .help    => .stop .help
  | .version => .stop .version

/-- A word that begins with two hyphens, without them. An equals sign sets off a value. -/
def ofLong (s : Partial) (cs : List Char) : Step :=
  let name := cs.takeWhile (· != '=')
  let value := (cs.dropWhile (· != '=')).drop 1
  let attached := name.length < cs.length
  match OptionName.ofLong? (String.ofList name) with
  | some (.switch o)  => if attached then .stop .misuse else ofSwitch s o
  | some (.setting o) => if attached then ofOption (s.give o (String.ofList value)) else .needsValue s o
  | none              => .stop .misuse

/-- Letters after a hyphen. The value of an option may follow its letter, also after an equals
sign. -/
def ofLetters (s : Partial) : List Char → Step
  | []      => .next s
  | c :: cs =>
    match OptionName.ofShort? c with
    | some (.switch o)  =>
      match ofSwitch s o with
      | .next s => ofLetters s cs
      | step    => step
    | some (.setting o) =>
      match cs with
      | []           => .needsValue s o
      | '=' :: value => ofOption (s.give o (String.ofList value))
      | value        => ofOption (s.give o (String.ofList value))
    | none              => .stop .misuse

end Step

/-- Whether a word can be a value: options cannot, a hyphen alone can. -/
def isValue (word : String) : Bool :=
  match word.toList with
  | '-' :: _ :: _ => false
  | _             => true

/-- All words are paths. -/
def readPaths (s : Partial) : List String → Request
  | []            => s.request
  | word :: words =>
    match s.addDocument word with
    | some s => readPaths s words
    | none   => .misuse

/-- Reads words, the first of which may have to be a value. -/
def readWords (s : Partial) : Option Setting → List String → Request
  | some _, []            => .misuse
  | none, []              => s.request
  | some o, word :: words =>
    if isValue word then
      match s.give o word with
      | some s => readWords s none words
      | none   => .misuse
    else .misuse
  | none, word :: words   =>
    let step := match word.toList with
      | '-' :: '-' :: cs => Step.ofLong s cs
      | '-' :: c :: cs   => Step.ofLetters s (c :: cs)
      | _                => Step.ofOption (s.addDocument word)
    -- after two hyphens alone, all words are paths
    if word = "--" then readPaths s words
    else
      match step with
      | .next s         => readWords s none words
      | .needsValue s o => readWords s (some o) words
      | .stop r         => r

/-- What a command line asks for. -/
def Request.ofWords (words : List String) : Request := readWords {} none words

end TypedClient.CommandLine

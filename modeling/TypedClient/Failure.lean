/-! # Failures

Why a generation stops, or why it leaves an operation out. Each cause is a value; its wording is
in one place.
-/

namespace TypedClient

/-- A place in a document, as messages name it: `definitions.Pet.properties.tag`. -/
structure Location where
  text : String
  deriving DecidableEq, Repr

namespace Location

/-- The whole document. -/
def root : Location := ⟨"document root"⟩

/-- Somewhere in a YAML text. Every fault of the syntax of such a text has this one place: the line and
the column at which reading stops are not kept, unlike those of a JSON text. -/
def yaml : Location := ⟨"yaml syntax"⟩

def line (line column : Nat) : Location :=
  ⟨"line " ++ toString line ++ ", column " ++ toString column⟩

/-- The value of a key. -/
def key (l : Location) (name : String) : Location := ⟨l.text ++ "." ++ name⟩

/-- The item of a list. -/
def item (l : Location) (index : Nat) : Location := ⟨l.text ++ "[" ++ toString index ++ "]"⟩

end Location

/-- What is wrong with a document. -/
inductive Fault where
  /-- The text is not in the format it starts in. -/
  | format (name : String)
  /-- A value does not have the shape that its place asks for. -/
  | shape
  | notMapping
  | noVersion
  | swaggerVersion (version : String)
  | openApiVersion (version : String)
  | reference (target : String)
  | pathItemReference
  | unknownParameter (name : String)
  | unknownResponse (name : String)
  | unknownComponent (name : String)
  | endlessReferences
  | namelessParameter
  | unknownCarrier (key : String)
  | bodyWithoutSchema
  | unknownPrimitive (name : String)
  | aliasCycle (name : String)
  | inheritanceCycle (name : String)
  | notObject (name : String)
  deriving DecidableEq, Repr

/-- A name between the marks that messages put around names. -/
def quoted (name : String) : String := "`" ++ name ++ "`"

def Fault.message : Fault → String
  | .format name           => "the text is not valid " ++ name
  | .shape                 => "the value does not have the expected shape"
  | .notMapping            => "expected a mapping"
  | .noVersion             =>
    "neither a `swagger` nor an `openapi` version field is present"
  | .swaggerVersion v      => "unsupported Swagger version " ++ quoted v
  | .openApiVersion v      => "unsupported OpenAPI version " ++ quoted v
  | .reference target      => "unrecognized $ref " ++ quoted target
  | .pathItemReference     => "path item references are not supported"
  | .unknownParameter name => "unknown parameter " ++ quoted name
  | .unknownResponse name  => "unknown response " ++ quoted name
  | .unknownComponent name => "unknown component " ++ quoted name
  | .endlessReferences     => "reference chain does not end"
  | .namelessParameter     => "parameter without a name"
  | .unknownCarrier key    => "unknown parameter location " ++ quoted key
  | .bodyWithoutSchema     => "body parameter without a schema"
  | .unknownPrimitive name => "unknown primitive type " ++ quoted name
  | .aliasCycle name       => "alias " ++ quoted name ++ " refers to itself"
  | .inheritanceCycle name => "inheritance cycle through " ++ quoted name
  | .notObject name        => quoted name ++ " is not an object definition"

/-- An operation that no client method can express. -/
structure Skipped where
  /-- The operation's label. -/
  operation : String
  reason : String
  deriving DecidableEq, Repr

def Skipped.message (s : Skipped) : String :=
  "skipped operation " ++ s.operation ++ ": " ++ s.reason

/-- Why a file could not be read or written. -/
inductive FileError where
  | missing
  | exists
  | notDirectory
  | isDirectory
  | notUtf8
  | other (text : String)
  deriving DecidableEq, Repr

def FileError.message : FileError → String
  | .missing      => "No such file or directory (os error 2)"
  | .exists       => "File exists (os error 17)"
  | .notDirectory => "Not a directory (os error 20)"
  | .isDirectory  => "Is a directory (os error 21)"
  | .notUtf8      => "stream did not contain valid UTF-8"
  | .other text   => text

inductive Failure where
  | malformed (place : Location) (fault : Fault)
  /-- A name that is neither a definition nor an alias. -/
  | unresolved (name : String) (place : Location)
  | unsupported (skipped : Skipped)
  | unreadable (path : String) (error : FileError)
  /-- Two models have one type name in the generated source. -/
  | repeatedType (identifier : String)
  deriving DecidableEq, Repr

def Failure.message : Failure → String
  | .malformed place fault    =>
    "malformed schema document at " ++ place.text ++ ": " ++ fault.message
  | .unresolved name place    => "unresolved reference " ++ quoted name ++ " at " ++ place.text
  | .unsupported skipped    => skipped.message
  | .unreadable path error  => "failed to read " ++ path ++ ": " ++ error.message
  | .repeatedType ident     =>
    "failed to emit generated source: type " ++ quoted ident ++ " is emitted twice"

/-- The place a failure comes from, if it has one. -/
def Failure.location? : Failure → Option String
  | .malformed place _       => some place.text
  | .unresolved _ place      => some place.text
  | .unsupported skipped   => some skipped.operation
  | .unreadable _ _        => none
  | .repeatedType _        => none

end TypedClient

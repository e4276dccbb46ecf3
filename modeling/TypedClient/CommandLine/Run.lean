import TypedClient.CommandLine.Options
import TypedClient.Files.Documents
import TypedClient.Log.Filter
import TypedClient.Source.Emission

/-! # A run of the program

Generates a client for each document and writes it to a file of its own. A document that fails does
not keep others from being written.
-/

namespace TypedClient.CommandLine

/-- Why a run fails. -/
inductive RunError where
  /-- Two documents would be written to one file. -/
  | sameOutput (first second name : String)
  | notCreated (path : String) (e : FileError)
  | notEmitted (path : String) (e : Failure)
  | notWritten (path : String) (e : FileError)
  /-- So many of the documents failed. -/
  | failedDocuments (failed all : Nat)
  deriving DecidableEq, Repr

namespace RunError

/-- What went wrong, and then what caused it. -/
def messages : RunError → List String
  | .sameOutput first second name =>
    [first ++ " and " ++ second ++ " would both write " ++ name]
  | .notCreated path e            => ["failed to create " ++ path, e.message]
  | .notEmitted path e            => ["failed to emit " ++ path, e.message]
  | .notWritten path e            => ["failed to write " ++ path, e.message]
  | .failedDocuments failed all   =>
    [toString failed ++ " of " ++ toString all ++ " documents failed"]

/-- The lines that tell of an error. -/
def lines (e : RunError) : List String :=
  match e.messages with
  | []                => []
  | message :: causes =>
    ("Error: " ++ message)
      :: if causes.isEmpty then [] else "" :: "Caused by:" :: causes.map ("    " ++ ·)

end RunError

/-- What a run leaves behind, apart from files. -/
structure Report where
  log : List Log.Entry := []
  error : Option RunError := none
  deriving DecidableEq, Repr

namespace Report

/-- The exit code: zero if all documents were generated. -/
def exitCode (r : Report) : Nat := if r.error.isSome then 1 else 0

/-- The report of what happens after some events. -/
def after (log : List Log.Entry) (r : Report) : Report := { r with log := log ++ r.log }

end Report

/-! ## Output files -/

/-- The name of the file for the client of a document. -/
def outputName (path : String) : String :=
  let stem := ((Path.stem? path).map Text.snake).filter (!·.isEmpty)
  stem.getD "client" ++ ".rs"

/-- The first document whose output name an earlier one has, given with that one. `claimed` are the
documents before. -/
def findClash (claimed : List String) : List String → Option RunError
  | []            => none
  | path :: paths =>
    match claimed.find? fun c => outputName c == outputName path with
    | some first => some (.sameOutput first path (outputName path))
    | none       => findClash (path :: claimed) paths

/-! ## The log of a run -/

def failedEvent (path : String) (e : Failure) : Log.Entry :=
  { event := {
      level := .error
      source := Log.program
      message := e.message
      fields := [("spec", path)] } }

def emittedEvent (g : Generation) (source : String) : Log.Entry :=
  { event := {
      level := .debug
      source := Log.part "emitter"
      message := "emitted rust source"
      fields := [("models", toString g.models.length),
        ("operations", toString g.client.methods.length),
        ("bytes", toString source.utf8ByteSize)] } }

def checkedEvent (path : String) (g : Generation) : Log.Entry :=
  { event := {
      level := .info
      source := Log.program
      message := "checked"
      fields := [("spec", path), ("models", toString g.models.length),
        ("operations", toString g.client.methods.length),
        ("skipped", toString g.skipped.length)] } }

def wroteEvent (path out : String) : Log.Entry :=
  { event := {
      level := .info
      source := Log.program
      message := "wrote client"
      fields := [("spec", path), ("out", out)] } }

/-! ## Running -/

namespace Options

def settings (o : Options) : Settings :=
  { clientName := o.clientName, baseEndpoint := o.baseEndpoint }

/-- What is shown of the log of a run unless the user says otherwise. -/
def defaultFilter (o : Options) : Log.Filter :=
  let own (rank : Nat) : Log.Directive := { source := some Log.program, rank }
  match o.verbosity with
  | 0 => ⟨[{ rank := Log.Level.info.rank }]⟩
  | 1 => ⟨[{ rank := Log.Level.info.rank }, own Log.Level.debug.rank]⟩
  | _ => ⟨[{ rank := Log.Level.debug.rank }, own Log.Level.trace.rank]⟩

variable {m : Type → Type} [Monad m] [FileAccess m]

/-- Deals with the outcomes in order, of which `failed` were failures so far. A client that cannot be
written ends the run. -/
def conclude (o : Options) (failed : Nat) : List DocumentOutcome → m Report
  | [] =>
    pure { error :=
      if failed = 0 then none else some (.failedDocuments failed o.documents.length) }
  | outcome :: outcomes =>
    match outcome.generation with
    | .error e => do
      return (← o.conclude (failed + 1) outcomes).after [failedEvent outcome.path e]
    | .ok g    =>
      match g.source with
      | .error e   => pure { error := some (.notEmitted outcome.path e) }
      | .ok source => do
        let emitted := emittedEvent g source
        if o.check then
          return (← o.conclude failed outcomes).after [emitted, checkedEvent outcome.path g]
        else
          let out := Path.join o.outDirectory (outputName outcome.path)
          match ← FileAccess.write out source with
          | .error e => return { log := [emitted], error := some (.notWritten out e) }
          | .ok _    =>
            return (← o.conclude failed outcomes).after [emitted, wroteEvent outcome.path out]

/-- Generates from all documents and deals with the outcomes. -/
def process (o : Options) : m Report := do
  let outcomes ← o.settings.generateAll o.documents
  return (← o.conclude 0 outcomes).after (outcomes.flatMap (·.log))

/-- A run. Nothing is done if two documents would be written to one file. -/
def run (o : Options) : m Report :=
  match findClash [] o.documents with
  | some e => pure { error := some e }
  | none   =>
    if o.check then o.process
    else do
      match ← FileAccess.createDirectories o.outDirectory with
      | .error e => return { error := some (.notCreated o.outDirectory e) }
      | .ok _    => o.process

end Options

end TypedClient.CommandLine

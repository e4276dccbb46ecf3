import TypedClient.Files.Access
import TypedClient.Progress

/-! # Documents in files

Loading and generating from the documents that paths name.
-/

namespace TypedClient

variable {m : Type → Type} [Monad m] [FileAccess m]

/-- The text of a document. -/
def readText (path : String) : m (Except Failure String) := do
  match ← FileAccess.read path with
  | .ok text => pure (.ok text)
  | .error e => pure (.error (.unreadable path e))

/-- The schema document in a file. -/
def loadFile (path : String) : m (Except Failure Schema.Document) := do
  return (← readText path).bind load

/-- The outcome for a document in a file, with what is reported about it. -/
structure DocumentOutcome where
  path : String
  generation : Except Failure Generation
  log : List Log.Entry

/-- The work on one document, as the log shows it. -/
def generateSpan (path : String) : Log.Span := { name := "generate", fields := [("path", path)] }

namespace Settings

/-- The outcome for the text of a file, or for the failure to read it. -/
def outcomeFor (s : Settings) (path : String) (text : Except Failure String) : DocumentOutcome :=
  { path
    generation := text.bind s.generate
    log := match text with
      | .ok text => (Progress.ofText s text).map fun event =>
        { span := some (generateSpan path), event }
      | .error _ => [] }

def generateFile (s : Settings) (path : String) : m DocumentOutcome := do
  return s.outcomeFor path (← readText path)

/-- The outcomes for documents in the order of their paths. Each is what it is for its document
alone. -/
def generateAll (s : Settings) (paths : List String) : m (List DocumentOutcome) :=
  paths.mapM s.generateFile

end Settings

end TypedClient

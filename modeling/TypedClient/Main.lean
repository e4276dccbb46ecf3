import TypedClient.CommandLine.Run

/-! # The program

Writes a client for each document that the command line names.
-/

namespace TypedClient.Main

open CommandLine

/-- What kept a file from being read or written. -/
def fileError : IO.Error → FileError
  | .noFileOrDirectory ..      => .missing
  | .noSuchThing ..            => .missing
  | .alreadyExists ..          => .exists
  | .inappropriateType _ 21 _  => .isDirectory
  | .inappropriateType _ 20 _  => .notDirectory
  | e                          => .other (toString e)

def attempt {α : Type} (act : IO α) : IO (Except FileError α) := do
  try return .ok (← act) catch e => return .error (fileError e)

instance : FileAccess IO where
  read path := do
    match ← attempt (IO.FS.readBinFile path) with
    | .error e  => return .error e
    | .ok bytes =>
      match String.fromUTF8? bytes with
      | some s => return .ok s
      | none   => return .error .notUtf8
  createDirectories path := attempt (IO.FS.createDirAll path)
  write path text := attempt (IO.FS.writeFile path text)

def usage : String :=
  "Usage: oapi_client_generator [OPTIONS] <SPECS>...\n\n"
    ++ "Options:\n"
    ++ "  -o, --out-dir <OUT_DIR>          Output directory [default: .]\n"
    ++ "      --base-url <BASE_URL>        Base URL of the clients\n"
    ++ "      --client-name <CLIENT_NAME>  Name of the client struct [default: Client]\n"
    ++ "      --check                      Report problems without writing anything\n"
    ++ "  -v, --verbose...                 More logging\n"
    ++ "  -h, --help                       Print help\n"
    ++ "  -V, --version                    Print version\n"

/-- Runs and prints the log and the error; the result is the exit code. -/
def run (o : Options) : IO UInt32 := do
  let filter := match ← IO.getEnv "RUST_LOG" with
    | some s => Log.Filter.ofText s
    | none   => o.defaultFilter
  let report ← o.run
  for line in filter.lines report.log do
    IO.eprintln line
  for line in (report.error.map RunError.lines).getD [] do
    IO.eprintln line
  return report.exitCode.toUInt32

def perform : Request → IO UInt32
  | .run o   => run o
  | .help    => do IO.print usage; return 0
  | .version => do IO.println "oapi_client_generator 0.1.0"; return 0
  | .misuse  => do IO.eprint usage; return 2

end TypedClient.Main

def main (words : List String) : IO UInt32 :=
  TypedClient.Main.perform (TypedClient.CommandLine.Request.ofWords words)

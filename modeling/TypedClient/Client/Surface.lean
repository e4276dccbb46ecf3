import TypedClient.Client.Method

/-! # Clients

The methods of a client with the endpoint that its requests go to.
-/

namespace TypedClient

structure Client where
  name : String
  /-- Requests go here unless a user of the client says otherwise. -/
  baseEndpoint : String
  methods : List Method
  deriving DecidableEq, Repr

namespace Client

def defaultName : String := "Client"

/-- A client of the default name; slashes at the end of the endpoint are dropped. -/
def assemble (baseEndpoint : String) (methods : List Method) : Client :=
  { name := defaultName
    baseEndpoint :=
      String.ofList (baseEndpoint.toList.reverse.dropWhile (· == '/')).reverse
    methods }

def withName (c : Client) (name : String) : Client := { c with name }

def method? (c : Client) (name : String) : Option Method :=
  c.methods.find? (·.name = name)

def methodNames (c : Client) : List String := c.methods.map (·.name)

end Client

end TypedClient

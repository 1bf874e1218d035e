import SearchClient.Error

/-!
# What can go wrong in a session

A call fails because the engine refused it, because it could not be sent, or
because its answer does not read as it should.
-/

namespace SearchClient

inductive SessionError where
  | http (reason : String)
  | status (code : Nat) (type : String) (reason : Option String)
  | notFound (path : String)
  | config (reason : String)
  | malformedConfig
  | unreadableConfig
  | invalidUrl
  | json (reason : String)
  | core (e : Error)
  deriving DecidableEq, Repr

namespace SessionError

def kind : SessionError → String
  | http _ => "Http"
  | status .. => "Status"
  | notFound _ => "NotFound"
  | config _ | malformedConfig => "Config"
  | unreadableConfig => "Io"
  | invalidUrl => "InvalidUrl"
  | json _ => "Json"
  | core e => e.kind

def message : SessionError → String
  | http reason => "Connection failed: " ++ reason
  | status code type reason =>
      "Engine returned status " ++ toString code ++ ": " ++ type ++
        (match reason with
          | some reason => ": " ++ reason
          | none => "")
  | notFound path => "Resource not found: " ++ path
  | config reason => "Configuration error: " ++ reason
  | malformedConfig => "Configuration error: malformed settings"
  | unreadableConfig => "IO error: unreadable settings"
  | invalidUrl => "Invalid URL: malformed address"
  | json reason => "JSON error: " ++ reason
  | core e => e.message

def isNotFound : SessionError → Bool
  | notFound _ => true
  | status code _ _ => code == 404
  | _ => false

end SessionError

def liftCore {α : Type} : Except Error α → Except SessionError α
  | .ok a => .ok a
  | .error e => .error (.core e)

end SearchClient

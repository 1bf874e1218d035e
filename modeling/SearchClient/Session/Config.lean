import SearchClient.Engine.Version
import SearchClient.Session.Error
import SearchClient.Toml.Parse
import SearchClient.Toml.Text
import SearchClient.Url.Endpoint

/-!
# Settings of a session

Settings are kept in a text of named values.  What the text leaves out has a
default, and names that mean nothing here are passed over.
-/

namespace SearchClient

structure Config where
  url : String := "http://localhost:9200"
  username : Option String := none
  password : Option String := none
  timeoutMillis : Nat := 30000
  version : Option String := none
  deriving DecidableEq, Repr

namespace Config

def baseUrl (c : Config) : Except SessionError Url :=
  match Url.parse? c.url with
  | some url => .ok url
  | none => .error .invalidUrl

def pinned (c : Config) : Except SessionError (Option Version) :=
  match c.version with
  | none => .ok none
  | some text => some <$> liftCore (Version.parse text)

def timeoutSeconds (c : Config) : Nat := c.timeoutMillis / 1000

def validate (c : Config) : Except SessionError Config := do
  let _ ← c.baseUrl
  let _ ← c.pinned
  if c.password.isSome && c.username.isNone then
    .error (.config "password given without username")
  else return c

def ofSettings (url username password : Option String) (timeoutMillis : Option Nat)
    (version : Option String) : Config :=
  let defaults : Config := {}
  { url := url.getD defaults.url
    username, password
    timeoutMillis := timeoutMillis.getD defaults.timeoutMillis
    version }

def stringAt (fields : Toml.Fields) (name : String) : Except SessionError (Option String) :=
  match fields.get? name with
  | none => .ok none
  | some (.string s) => .ok (some s)
  | some _ => .error .malformedConfig

def millisAt (fields : Toml.Fields) (name : String) : Except SessionError (Option Nat) :=
  match fields.get? name with
  | none => .ok none
  | some (.integer n) => if 0 ≤ n then .ok (some n.toNat) else .error .malformedConfig
  | some _ => .error .malformedConfig

def ofFields (fields : Toml.Fields) : Except SessionError Config := do
  let url ← stringAt fields "url"
  let username ← stringAt fields "username"
  let password ← stringAt fields "password"
  let timeout ← millisAt fields "timeout_ms"
  let version ← stringAt fields "version"
  return ofSettings url username password timeout version

def ofText (text : String) : Except SessionError Config := do
  match Toml.parse? text with
  | some fields => validate (← ofFields fields)
  | none => .error .malformedConfig

def ofContent : Option String → Except SessionError Config
  | some text => ofText text
  | none => .error .unreadableConfig

def optionalChars (name : String) : Option String → List Char
  | some s => Toml.pairChars name (Toml.stringChars s)
  | none => []

/-- The text that holds some settings; a number in it has at most 63 bits. -/
def toText (c : Config) : Except SessionError String :=
  if c.timeoutMillis < Decimal.pow2 63 then
    .ok (String.ofList
      (Toml.pairChars "url" (Toml.stringChars c.url) ++
        optionalChars "username" c.username ++ optionalChars "password" c.password ++
        Toml.pairChars "timeout_ms" (toString c.timeoutMillis).toList ++
        optionalChars "version" c.version))
  else .error (.config "out-of-range value for u64 type")

end Config

end SearchClient

import SearchClient.Url.Host

/-!
# Addresses

An address is a scheme, for most schemes an authority, a path, and perhaps a
query and a fragment.  All parts are kept in their encoded form, so the text
of an address is their concatenation.
-/

namespace SearchClient

namespace Url

structure Authority where
  username : String := ""
  password : String := ""
  host : Host
  port : Option Nat := none
  deriving DecidableEq, Repr

/-- A path is a list of segments, or free text where the address names no place. -/
inductive Path where
  | rooted (segments : List String)
  | rootless (text : String)
  deriving DecidableEq, Repr

end Url

structure Url where
  scheme : String
  authority : Option Url.Authority
  path : Url.Path
  query : Option String := none
  fragment : Option String := none
  deriving DecidableEq, Repr

namespace Url

def defaultPorts : List (String × Option Nat) :=
  [("http", some 80), ("https", some 443), ("ws", some 80), ("wss", some 443),
    ("ftp", some 21), ("file", none)]

def isSpecial (scheme : String) : Bool := (defaultPorts.lookup scheme).isSome

def defaultPort? (scheme : String) : Option Nat := (defaultPorts.lookup scheme).join

def Authority.userinfoChars (a : Authority) : List Char :=
  if a.username.isEmpty && a.password.isEmpty then []
  else if a.password.isEmpty then a.username.toList ++ ['@']
  else a.username.toList ++ ':' :: a.password.toList ++ ['@']

def Authority.portChars (a : Authority) : List Char :=
  match a.port with
  | some port => ':' :: (toString port).toList
  | none => []

def Authority.chars (a : Authority) : List Char :=
  a.userinfoChars ++ a.host.chars ++ a.portChars

def Path.chars : Path → List Char
  | rooted segments => segments.flatMap fun s => '/' :: s.toList
  | rootless text => text.toList

/-- A rooted path that begins with two slashes would be taken for an authority. -/
def needsDot : Option Authority → Path → Bool
  | none, .rooted ("" :: _ :: _) => true
  | _, _ => false

def marked (mark : Char) : Option String → List Char
  | some text => mark :: text.toList
  | none => []

def chars (u : Url) : List Char :=
  u.scheme.toList ++ ':' ::
    ((match u.authority with
      | some a => '/' :: '/' :: a.chars
      | none => []) ++
    (if needsDot u.authority u.path then ['/', '.'] else []) ++
    u.path.chars ++ marked '?' u.query ++ marked '#' u.fragment)

def text (u : Url) : String := String.ofList u.chars

end Url

end SearchClient

import SearchClient.Url.Parse

/-!
# Addresses below a base

The address of a request is the address of the engine, the path of the
request below it, and the parameters as a form in the query.
-/

namespace SearchClient.Url

open Text

/-- The address of a path below a base; slashes between the two count as one. -/
def below? (base : Url) (path : String) : Option Url :=
  let isMark (c : Char) : Bool := c = '/'
  ofChars? (trimEnd isMark base.chars ++ '/' :: trimStart isMark path.toList)

def formChars (params : List (String × String)) : List Char :=
  let pairs := params.map fun (name, value) =>
    encodeForm name.toList ++ '=' :: encodeForm value.toList
  match pairs with
  | [] => []
  | first :: rest => first ++ rest.flatMap ('&' :: ·)

def withParams (u : Url) (params : List (String × String)) : Url :=
  match params, u.query with
  | [], _ => u
  | params, none | params, some "" => { u with query := some (String.ofList (formChars params)) }
  | params, some q =>
      { u with query := some (String.ofList (q.toList ++ '&' :: formChars params)) }

def endpoint? (base : Url) (path : String) (params : List (String × String)) : Option Url :=
  (base.below? path).map fun u => u.withParams params

end SearchClient.Url

import SearchClient.Proofs.Session.Runs

/-!
# Commands

A command is one of the calls that a session has, as data.  On an engine that
is known it is no more than its own message and the reading of the answer; a
command that needs an engine that is not known asks for the engine first.
-/

namespace SearchClient

open Exchange (noAnswer)

inductive Command : Type 1 where
  | engine
  | version
  | features
  | search {δ : Type} (indices : List String) (s : Search δ)
  | count {δ : Type} (indices : List String) (s : Search δ)
  | multiSearch {δ : Type} (searches : List (String × Search δ))
  | bulk (index : Option String) (actions : List BulkAction) (refresh : Option Refresh)
  | createIndex (index : String) (settings : Option Json.Object) (m : Mapping)
  | updateMapping (index : String) (m : Mapping)
  | indexExists (index : String)
  | deleteIndex (index : String)
  | ping

namespace Command

def Result : Command → Type
  | engine => Engine
  | version => Version
  | features => Features
  | @search δ _ _ => SearchResult δ
  | count .. => Int
  | @multiSearch δ _ => List (MultiItem δ)
  | bulk .. => BulkResult
  | createIndex .. => CreatedIndex
  | updateMapping .. => Bool
  | indexExists _ => Bool
  | deleteIndex _ => Bool
  | ping => Nat

def call : (c : Command) → Call c.Result
  | engine => Session.engine
  | version => Session.version
  | features => Session.features
  | search indices s => Session.search indices s
  | count indices s => Session.count indices s
  | multiSearch searches => Session.multiSearch searches
  | bulk index actions refresh => Session.bulk index actions refresh
  | createIndex index settings m => Session.createIndex index settings m
  | updateMapping index m => Session.updateMapping index m
  | indexExists index => Session.indexExists index
  | deleteIndex index => Session.deleteIndex index
  | ping => Session.ping

def own? (f : Features) : Command → Option Message
  | engine | version | features => none
  | search indices s => some (s.request f indices).message
  | count indices s => some (s.countRequest f indices).message
  | multiSearch searches =>
      if searches.isEmpty then none else some (Search.multiRequest f searches).message
  | bulk index actions refresh => some (bulkRequest f index actions refresh).message
  | createIndex index settings m => some (createIndexRequest f index settings m).message
  | updateMapping index m => some (updateMappingRequest f index m).message
  | indexExists index => some (Session.existsRequest index).message
  | deleteIndex index => some (Session.deleteRequest index).message
  | ping => some (Session.root .head)

/-- What the command returns on an engine, given the answer to its own message. -/
def reply (e : Engine) : (c : Command) → Answer → Except SessionError c.Result
  | engine, _ => .ok e
  | version, _ => .ok e.version
  | features, _ => .ok e.features
  | search indices s, answer => (s.request e.features indices).reply answer
  | count indices s, answer => (s.countRequest e.features indices).reply answer
  | multiSearch searches, answer =>
      if searches.isEmpty then .ok [] else (Search.multiRequest e.features searches).reply answer
  | bulk index actions refresh, answer =>
      (bulkRequest e.features index actions refresh).reply answer
  | createIndex index settings m, answer =>
      (createIndexRequest e.features index settings m).reply answer
  | updateMapping index m, answer => (updateMappingRequest e.features index m).reply answer
  | indexExists index, answer =>
      match (Session.existsRequest index).reply answer with
      | .ok () => .ok true
      | .error x => if x.isNotFound then .ok false else .error x
  | deleteIndex index, answer => (Session.deleteRequest index).reply answer
  | ping, answer => answer.map Response.status

end Command

end SearchClient

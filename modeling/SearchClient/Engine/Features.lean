import SearchClient.Engine.Version

/-!
# What an engine version supports

Only two things on the wire depend on the version: whether mappings and bulk
lines name a mapping type, and whether a search may track its total hits.
-/

namespace SearchClient

structure Features where
  requiresTypeName : Bool
  supportsTrackTotalHits : Bool
  deriving DecidableEq, Repr

def defaultType : String := "_doc"

namespace Features

def typed : Features := ⟨true, false⟩

def untyped : Features := ⟨false, true⟩

instance : Inhabited Features := ⟨untyped⟩

/-- The least supported versions and what holds from them on, newest first. -/
def thresholds : Distribution → List (Nat × Features)
  | .elasticsearch => [(7, untyped), (6, typed)]
  | .openSearch => [(1, untyped)]

def ofVersion (v : Version) : Except Error Features :=
  match (thresholds v.distribution).find? fun entry => v.atLeast entry.1 with
  | some entry => .ok entry.2
  | none => .error (.unsupportedVersion v.text)

end Features

end SearchClient

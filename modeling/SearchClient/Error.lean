import SearchClient.Json.Path

/-!
# What can go wrong

An error is a cause; its message is the text shown for it.  The causes that
come from reading an engine's answer are the decode errors.
-/

namespace SearchClient

open Json (Path)

inductive Error where
  | duplicateHandle (name : String)
  | handleNotFound (name : String)
  | mappingConflict (field reason : String)
  | missingField (path : Path)
  | invalidType (path : Path) (expected : String)
  | unknownBulkOp (keys : String)
  | unsupportedVersion (version : String)
  | unknownDistribution (name : String)
  | invalidVersion (number : String)
  | invalidTerm (field reason : String)
  | document (reason : String)
  deriving DecidableEq, Repr

namespace Error

def kind : Error → String
  | duplicateHandle _ => "DuplicateHandle"
  | handleNotFound _ => "HandleNotFound"
  | mappingConflict _ _ => "MappingConflict"
  | missingField _ => "MissingField"
  | invalidType _ _ => "InvalidType"
  | unknownBulkOp _ => "UnknownBulkOp"
  | unsupportedVersion _ => "UnsupportedVersion"
  | unknownDistribution _ => "UnknownDistribution"
  | invalidVersion _ => "InvalidVersion"
  | invalidTerm _ _ => "InvalidTerm"
  | document _ => "Json"

def message : Error → String
  | duplicateHandle name => "Duplicate node handle: " ++ name
  | handleNotFound name => "Node handle not found: " ++ name
  | mappingConflict field reason => "Mapping conflict for field '" ++ field ++ "': " ++ reason
  | missingField path => "Missing required field: " ++ path.text
  | invalidType path expected =>
      "Invalid value at '" ++ path.text ++ "': expected " ++ expected
  | unknownBulkOp keys => "Unknown bulk operation in response item: " ++ keys
  | unsupportedVersion version => "Unsupported engine version: " ++ version
  | unknownDistribution name => "Unknown engine distribution: " ++ name
  | invalidVersion number => "Invalid version string: " ++ number
  | invalidTerm field reason => "Invalid term value for field '" ++ field ++ "': " ++ reason
  | document reason => "JSON error: " ++ reason

def isDecodeError : Error → Bool
  | missingField _ | invalidType _ _ | unknownBulkOp _ | unknownDistribution _
  | invalidVersion _ | invalidTerm _ _ | document _ => true
  | duplicateHandle _ | handleNotFound _ | mappingConflict _ _ | unsupportedVersion _ => false

end Error

end SearchClient

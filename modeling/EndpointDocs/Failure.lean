namespace EndpointDocs

/-- What goes wrong with files and documents. -/
inductive Failure
  /-- A file cannot be read or written. -/
  | access (message : String)
  /-- A file does not hold what it should. -/
  | parse (file message : String)
  /-- A file holds no settings. -/
  | settings (file message : String)
  /-- A text does not write a record, or a record cannot be written. -/
  | record (message : String)
  /-- A document cannot be published. -/
  | publication (target message : String)
  deriving DecidableEq

namespace Failure

def message : Failure → String
  | .access message => "IO error: " ++ message
  | .parse file message => "parse error in " ++ file ++ ": " ++ message
  | .settings file message => "invalid config " ++ file ++ ": " ++ message
  | .record message => "serialization error: " ++ message
  | .publication target message => "failed to publish " ++ target ++ ": " ++ message

end Failure

end EndpointDocs

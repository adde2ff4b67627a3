import EndpointDocs.Yaml.Scalar

namespace EndpointDocs.Yaml

/-- Block collections have no brackets of their own; tokens stand for them where the indentation
changes. -/
inductive Token
  /-- `%YAML`, with the numbers of a version. -/
  | version (major minor : Nat)
  /-- `%TAG`, with a handle and what it abbreviates. -/
  | abbreviation (handle meaning : String)
  | documentStart
  | documentEnd
  | blockList
  | blockMap
  | blockEnd
  | flowList
  | flowListEnd
  | flowMap
  | flowMapEnd
  /-- The hyphen in front of an item. -/
  | item
  | comma
  | key
  | value
  | alias (name : String)
  | anchor (name : String)
  | tag (handle suffix : String)
  | scalar (text : String) (style : Style)
  deriving DecidableEq

end EndpointDocs.Yaml

import EndpointDocs.Node
import EndpointDocs.Record.Write

namespace EndpointDocs

open Node

/-- What may be left out of a list is nothing when it is. -/
def Node.Fields.list? {α : Type} (fs : Fields) (name : String) (read : Node → Option α) :
    Option (List α) :=
  fs.getD? name (listOf? read) []

/-- In this record as in all others, fields that nothing is known of are passed over, and a field
that is given has to be of its kind. -/
def Annotation.read? (n : Node) : Option Annotation := do
  let fs ← n.fields? ["name", "attributes"]
  return {
    name := ← fs.required? "name" text?
    attributes := ← fs.getD? "attributes" (mapOf? (listOf? text?)) [] }

def DocTag.read? (n : Node) : Option DocTag := do
  let fs ← n.fields? ["name", "value"]
  return { name := ← fs.required? "name" text?, value := ← fs.getD? "value" text? "" }

def DocComment.read? (n : Node) : Option DocComment := do
  let fs ← n.fields? ["text", "tags"]
  return { text := ← fs.getD? "text" text? "", tags := ← fs.list? "tags" DocTag.read? }

def Modifiers.read? (n : Node) : Option Modifiers := do
  let fs ← n.fields? ["private", "static"]
  return {
    isPrivate := ← fs.getD? "private" bool? false
    isStatic := ← fs.getD? "static" bool? false }

def FieldDecl.read? (n : Node) : Option FieldDecl := do
  let fs ← n.fields? ["name", "type_name", "modifiers", "annotations", "doc", "default_value"]
  return {
    name := ← fs.required? "name" text?
    typeText := ← fs.required? "type_name" text?
    modifiers := ← fs.getD? "modifiers" Modifiers.read? {}
    annotations := ← fs.list? "annotations" Annotation.read?
    doc := ← fs.getD? "doc" DocComment.read? {}
    initial := ← fs.optional? "default_value" text? }

def ParameterDecl.read? (n : Node) : Option ParameterDecl := do
  let fs ← n.fields? ["name", "type_name", "annotations"]
  return {
    name := ← fs.required? "name" text?
    typeText := ← fs.required? "type_name" text?
    annotations := ← fs.list? "annotations" Annotation.read? }

def MethodDecl.read? (n : Node) : Option MethodDecl := do
  let fs ← n.fields?
    ["name", "return_type", "parameters", "modifiers", "annotations", "doc", "signature"]
  return {
    name := ← fs.required? "name" text?
    returnType := ← fs.getD? "return_type" text? ""
    parameters := ← fs.list? "parameters" ParameterDecl.read?
    modifiers := ← fs.getD? "modifiers" Modifiers.read? {}
    annotations := ← fs.list? "annotations" Annotation.read?
    doc := ← fs.getD? "doc" DocComment.read? {}
    signature := ← fs.getD? "signature" text? "" }

def ConstantDecl.read? (n : Node) : Option ConstantDecl := do
  let fs ← n.fields? ["name", "description"]
  return {
    name := ← fs.required? "name" text?
    description := ← fs.optional? "description" text? }

def TypeDecl.read? (n : Node) : Option TypeDecl := do
  let fs ← n.fields?
    ["name", "short_name", "kind", "generic_params", "component_type", "fields", "methods",
      "constants", "supertypes", "annotations", "doc"]
  return {
    name := ← fs.required? "name" text?
    shortName := ← fs.getD? "short_name" text? ""
    kind := ← fs.getD? "kind" (oneOf? TypeKind.label TypeKind.all) .record
    parameters := ← fs.list? "generic_params" text?
    component := ← fs.optional? "component_type" text?
    fields := ← fs.list? "fields" FieldDecl.read?
    methods := ← fs.list? "methods" MethodDecl.read?
    constants := ← fs.list? "constants" ConstantDecl.read?
    supertypes := ← fs.list? "supertypes" text?
    annotations := ← fs.list? "annotations" Annotation.read?
    doc := ← fs.getD? "doc" DocComment.read? {} }

/-- The types of a dump. -/
def TypeDecl.readAll? (n : Node) : Option (List TypeDecl) := do
  let fs ← n.fields? ["types"]
  fs.list? "types" TypeDecl.read?

def KnownValue.read? (n : Node) : Option KnownValue := do
  let fs ← n.fields? ["value", "description"]
  return {
    value := ← fs.required? "value" text?
    description := ← fs.optional? "description" text? }

namespace Schema

def fieldNames : List String :=
  ["name", "type", "dateFormat", "description", "in", "required", "deprecated", "example", "mock",
    "defaultValue", "values", "items", "properties"]

/-- A schema from its fields, with what its children have been read as. -/
def ofFields? (fs : Fields) (items : Option (Option Schema))
    (properties : Option (Option (List (String × Schema)))) : Option Schema := do
  return {
    name := ← fs.getD? "name" text? ""
    dataType := ← fs.required? "type" (oneOf? DataType.label DataType.all)
    dateFormat := ← fs.optional? "dateFormat" text?
    description := ← fs.optional? "description" text?
    location := ← fs.optional? "in" (oneOf? Location.label Location.all)
    required := ← fs.getD? "required" bool? false
    deprecated := ← fs.getD? "deprecated" bool? false
    sample := ← fs.optional? "example" text?
    mock := ← fs.optional? "mock" text?
    default := ← fs.optional? "defaultValue" text?
    values := ← fs.optional? "values" (listOf? KnownValue.read?)
    items := ← items
    properties := ← properties }

/-- A schema of at most `depth` levels. -/
def readWithin (depth : Nat) (n : Node) : Option Schema :=
  match depth with
  | 0 => none
  | depth + 1 => do
    let fs ← n.fields? fieldNames
    ofFields? fs (fs.optional? "items" (readWithin depth))
      (fs.optional? "properties" (mapOf? (readWithin depth)))

end Schema

namespace Node

mutual

/-- How many lists and maps are inside one another. -/
def depth : Node → Nat
  | .leaf _ => 1
  | .list items => depthOfItems items + 1
  | .map entries => depthOfEntries entries + 1

def depthOfItems : List Node → Nat
  | [] => 0
  | n :: ns => max n.depth (depthOfItems ns)

def depthOfEntries : List (Node × Node) → Nat
  | [] => 0
  | e :: es => max (depthOfEntry e) (depthOfEntries es)

def depthOfEntry : Node × Node → Nat
  | (_, n) => n.depth

end

end Node

/-- Every level of a schema is a level of the node, so the node's depth bounds the reading. -/
def Schema.read? (n : Node) : Option Schema :=
  readWithin n.depth n

def Endpoint.read? (n : Node) : Option Endpoint := do
  let fs ← n.fields?
    ["method", "path", "category", "summary", "description", "deprecated", "tags", "parameters",
      "requestBodyType", "requestBody", "requestBodyForm", "responses"]
  return {
    method := ← fs.required? "method" (oneOf? HttpMethod.name HttpMethod.all)
    path := ← fs.required? "path" text?
    category := ← fs.optional? "category" text?
    summary := ← fs.optional? "summary" text?
    description := ← fs.optional? "description" text?
    deprecated := ← fs.getD? "deprecated" bool? false
    tags := ← fs.getD? "tags" textSet? []
    parameters := ← fs.list? "parameters" Schema.read?
    bodyEncoding := ← fs.optional? "requestBodyType" (oneOf? BodyEncoding.label BodyEncoding.all)
    body := ← fs.optional? "requestBody" Schema.read?
    formFields := ← fs.list? "requestBodyForm" Schema.read?
    response := ← fs.optional? "responses" Schema.read? }

def FieldOverride.read? (n : Node) : Option FieldOverride := do
  let fs ← n.fields?
    ["name", "description", "type", "required", "deprecated", "default_value", "example", "mock",
      "date_format"]
  return {
    name := ← fs.optional? "name" text?
    description := ← fs.optional? "description" text?
    dataType := ← fs.optional? "type" (oneOf? DataType.label DataType.all)
    required := ← fs.optional? "required" bool?
    deprecated := ← fs.optional? "deprecated" bool?
    default := ← fs.optional? "default_value" text?
    sample := ← fs.optional? "example" text?
    mock := ← fs.optional? "mock" text?
    dateFormat := ← fs.optional? "date_format" text? }

def TypeOverride.read? (n : Node) : Option TypeOverride := do
  let fs ← n.fields? ["includes", "excludes", "fields"]
  return {
    includes := ← fs.getD? "includes" textSet? []
    excludes := ← fs.getD? "excludes" textSet? []
    fields := ← fs.getD? "fields" (mapOf? FieldOverride.read?) [] }

def EndpointOverride.read? (n : Node) : Option EndpointOverride := do
  let fs ← n.fields? ["category", "summary", "description", "deprecated", "tags"]
  return {
    category := ← fs.optional? "category" text?
    summary := ← fs.optional? "summary" text?
    description := ← fs.optional? "description" text?
    deprecated := ← fs.optional? "deprecated" bool?
    tags := ← fs.list? "tags" text? }

def MockRule.read? (n : Node) : Option MockRule := do
  let fs ← n.fields? ["type", "pattern", "mock"]
  return {
    typeLabel := ← fs.optional? "type" text?
    pattern := ← fs.getD? "pattern" text? ""
    mock := ← fs.getD? "mock" text? "" }

def Settings.fieldNames : List String :=
  ["beans", "apis", "types", "date_time_format_mvc", "date_time_format_json", "date_types",
    "parameter_ignore_types", "return_unwrap_types", "return_wrap_type", "mock_rules",
    "mock_enabled", "controller_annotations", "collection_types", "map_types", "top_types",
    "accessor_base_types", "required_annotations"]

/-- Settings; what is not given is as it is in `{}`. -/
def Settings.read? (n : Node) : Option Settings := do
  let fs ← n.fields? Settings.fieldNames
  let d : Settings := {}
  return {
    types := ← fs.getD? "beans" (mapOf? TypeOverride.read?) d.types
    endpoints := ← fs.getD? "apis" (mapOf? EndpointOverride.read?) d.endpoints
    scalars := ← fs.getD? "types" (mapOf? text?) d.scalars
    parameterDateFormat :=
      ← fs.getD? "date_time_format_mvc" (Node.optional? text?) d.parameterDateFormat
    bodyDateFormat := ← fs.getD? "date_time_format_json" (Node.optional? text?) d.bodyDateFormat
    dateTypes := ← fs.getD? "date_types" (listOf? text?) d.dateTypes
    ignoredParameterTypes :=
      ← fs.getD? "parameter_ignore_types" (listOf? text?) d.ignoredParameterTypes
    unwrappedTypes := ← fs.getD? "return_unwrap_types" (listOf? text?) d.unwrappedTypes
    wrapperType := ← fs.getD? "return_wrap_type" (Node.optional? text?) d.wrapperType
    mockRules := ← fs.getD? "mock_rules" (listOf? MockRule.read?) d.mockRules
    mocksEnabled := ← fs.getD? "mock_enabled" bool? d.mocksEnabled
    controllerAnnotations :=
      ← fs.getD? "controller_annotations" (listOf? text?) d.controllerAnnotations
    collectionTypes := ← fs.getD? "collection_types" (listOf? text?) d.collectionTypes
    mapTypes := ← fs.getD? "map_types" (listOf? text?) d.mapTypes
    topTypes := ← fs.getD? "top_types" (listOf? text?) d.topTypes
    accessorBaseTypes := ← fs.getD? "accessor_base_types" (listOf? text?) d.accessorBaseTypes
    requiredAnnotations :=
      ← fs.getD? "required_annotations" (listOf? text?) d.requiredAnnotations }

end EndpointDocs

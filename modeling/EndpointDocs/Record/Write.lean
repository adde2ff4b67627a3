import EndpointDocs.Document
import EndpointDocs.Settings

namespace EndpointDocs

open Document

def Annotation.write (a : Annotation) : Document :=
  .record <| ("name", .text a.name) ::
    match a.attributes with
    | [] => []
    | attributes => [("attributes", ofMap texts attributes)]

def DocTag.write (t : DocTag) : Document :=
  .record [("name", .text t.name), ("value", .text t.value)]

def DocComment.write (d : DocComment) : Document :=
  .record (("text", .text d.text) :: entryUnlessEmpty "tags" DocTag.write d.tags)

/-- The entry for a comment, if that says anything. -/
def DocComment.entry (d : DocComment) : List (String × Document) :=
  if d.isEmpty then [] else [("doc", d.write)]

def Modifiers.write (m : Modifiers) : Document :=
  .record [("private", .bool m.isPrivate), ("static", .bool m.isStatic)]

def FieldDecl.write (f : FieldDecl) : Document :=
  .record <|
    [("name", .text f.name), ("type_name", .text f.typeText), ("modifiers", f.modifiers.write)] ++
    entryUnlessEmpty "annotations" Annotation.write f.annotations ++
    f.doc.entry ++
    entry? "default_value" .text f.initial

def ParameterDecl.write (p : ParameterDecl) : Document :=
  .record <|
    [("name", .text p.name), ("type_name", .text p.typeText)] ++
    entryUnlessEmpty "annotations" Annotation.write p.annotations

def MethodDecl.write (m : MethodDecl) : Document :=
  .record <|
    [("name", .text m.name), ("return_type", .text m.returnType)] ++
    entryUnlessEmpty "parameters" ParameterDecl.write m.parameters ++
    [("modifiers", m.modifiers.write)] ++
    entryUnlessEmpty "annotations" Annotation.write m.annotations ++
    m.doc.entry ++
    [("signature", .text m.signature)]

def ConstantDecl.write (c : ConstantDecl) : Document :=
  .record (("name", .text c.name) :: entry? "description" .text c.description)

namespace TypeKind

def label : TypeKind → String
  | .interface => "interface"
  | .record => "class"
  | .enumeration => "enum"
  | .array => "array"

def all : List TypeKind :=
  [.interface, .record, .enumeration, .array]

end TypeKind

def TypeDecl.write (t : TypeDecl) : Document :=
  .record <|
    [("name", .text t.name), ("short_name", .text t.shortName), ("kind", .text t.kind.label)] ++
    entryUnlessEmpty "generic_params" .text t.parameters ++
    entry? "component_type" .text t.component ++
    entryUnlessEmpty "fields" FieldDecl.write t.fields ++
    entryUnlessEmpty "methods" MethodDecl.write t.methods ++
    entryUnlessEmpty "constants" ConstantDecl.write t.constants ++
    entryUnlessEmpty "supertypes" .text t.supertypes ++
    entryUnlessEmpty "annotations" Annotation.write t.annotations ++
    t.doc.entry

/-- A dump of types. -/
def TypeDecl.writeAll (ts : List TypeDecl) : Document :=
  .record [("types", .list (ts.map TypeDecl.write))]

namespace Location

def label : Location → String
  | .query => "query"
  | .path => "path"
  | .header => "header"
  | .body => "body"
  | .form => "form"

def all : List Location :=
  [.query, .path, .header, .body, .form]

end Location

namespace BodyEncoding

def label : BodyEncoding → String
  | .form => "form"
  | .formData => "form-data"
  | .json => "json"
  | .raw => "raw"

def all : List BodyEncoding :=
  [.form, .formData, .json, .raw]

end BodyEncoding

def KnownValue.write (v : KnownValue) : Document :=
  .record (("value", .text v.value) :: entry? "description" .text v.description)

namespace Schema

/-- The entries for all but the children of a node. -/
def ownEntries (s : Schema) : List (String × Document) :=
  (if s.name = "" then [] else [("name", .text s.name)]) ++
  [("type", .text s.dataType.label)] ++
  entry? "dateFormat" .text s.dateFormat ++
  entry? "description" .text s.description ++
  entry? "in" (.text ∘ Location.label) s.location ++
  [("required", .bool s.required), ("deprecated", .bool s.deprecated)] ++
  entry? "example" .text s.sample ++
  entry? "mock" .text s.mock ++
  entry? "defaultValue" .text s.default ++
  entry? "values" (fun vs => .list (vs.map KnownValue.write)) s.values

mutual

def write : Schema → Document
  | ⟨name, dataType, dateFormat, description, location, required, deprecated, sample, mock,
      default, values, items, properties⟩ =>
    .record <|
      ownEntries ⟨name, dataType, dateFormat, description, location, required, deprecated, sample,
        mock, default, values, none, none⟩ ++ writeItems items ++ writeProperties properties

def writeItems : Option Schema → List (String × Document)
  | none => []
  | some s => [("items", write s)]

def writeProperties : Option (List (String × Schema)) → List (String × Document)
  | none => []
  | some entries => [("properties", .record (writeEntries entries))]

def writeEntries : List (String × Schema) → List (String × Document)
  | [] => []
  | e :: es => writeEntry e :: writeEntries es

def writeEntry : String × Schema → String × Document
  | (k, s) => (k, write s)

end

end Schema

def Endpoint.write (e : Endpoint) : Document :=
  .record <|
    [("method", .text e.method.name), ("path", .text e.path)] ++
    entry? "category" .text e.category ++
    entry? "summary" .text e.summary ++
    entry? "description" .text e.description ++
    [("deprecated", .bool e.deprecated)] ++
    entryUnlessEmpty "tags" .text e.tags ++
    entryUnlessEmpty "parameters" Schema.write e.parameters ++
    entry? "requestBodyType" (.text ∘ BodyEncoding.label) e.bodyEncoding ++
    entry? "requestBody" Schema.write e.body ++
    entryUnlessEmpty "requestBodyForm" Schema.write e.formFields ++
    entry? "responses" Schema.write e.response

def FieldOverride.write (o : FieldOverride) : Document :=
  .record [
    ("name", ofOption .text o.name),
    ("description", ofOption .text o.description),
    ("type", ofOption (.text ∘ DataType.label) o.dataType),
    ("required", ofOption .bool o.required),
    ("deprecated", ofOption .bool o.deprecated),
    ("default_value", ofOption .text o.default),
    ("example", ofOption .text o.sample),
    ("mock", ofOption .text o.mock),
    ("date_format", ofOption .text o.dateFormat)]

def TypeOverride.write (o : TypeOverride) : Document :=
  .record [
    ("includes", texts o.includes),
    ("excludes", texts o.excludes),
    ("fields", ofMap FieldOverride.write o.fields)]

def EndpointOverride.write (o : EndpointOverride) : Document :=
  .record [
    ("category", ofOption .text o.category),
    ("summary", ofOption .text o.summary),
    ("description", ofOption .text o.description),
    ("deprecated", ofOption .bool o.deprecated),
    ("tags", texts o.tags)]

def MockRule.write (r : MockRule) : Document :=
  .record [
    ("type", ofOption .text r.typeLabel),
    ("pattern", .text r.pattern),
    ("mock", .text r.mock)]

/-- Declarations and endpoints leave out what is empty, settings say everything. -/
def Settings.write (s : Settings) : Document :=
  .record [
    ("beans", ofMap TypeOverride.write s.types),
    ("apis", ofMap EndpointOverride.write s.endpoints),
    ("types", ofMap .text s.scalars),
    ("date_time_format_mvc", ofOption .text s.parameterDateFormat),
    ("date_time_format_json", ofOption .text s.bodyDateFormat),
    ("date_types", texts s.dateTypes),
    ("parameter_ignore_types", texts s.ignoredParameterTypes),
    ("return_unwrap_types", texts s.unwrappedTypes),
    ("return_wrap_type", ofOption .text s.wrapperType),
    ("mock_rules", .list (s.mockRules.map MockRule.write)),
    ("mock_enabled", .bool s.mocksEnabled),
    ("controller_annotations", texts s.controllerAnnotations),
    ("collection_types", texts s.collectionTypes),
    ("map_types", texts s.mapTypes),
    ("top_types", texts s.topTypes),
    ("accessor_base_types", texts s.accessorBaseTypes),
    ("required_annotations", texts s.requiredAnnotations)]

end EndpointDocs

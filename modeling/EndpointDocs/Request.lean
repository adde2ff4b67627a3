import EndpointDocs.Resolution

namespace EndpointDocs

/-- The parts of a request. -/
structure Request where
  parameters : List Schema := []
  encoding : BodyEncoding := .raw
  body : Option Schema := none
  formFields : List Schema := []
  deriving Inhabited

namespace Request

/-- The annotations that place a parameter, in the order in which they count. -/
def placements : List (String × Location) :=
  [("PathVariable", .path), ("RequestParam", .query), ("RequestHeader", .header),
    ("RequestBody", .body), ("RequestPart", .form), ("ModelAttribute", .form)]

/-- The place that the annotations of a parameter give it, and the one that does. -/
def placement? (p : ParameterDecl) : Option (Location × Annotation) :=
  placements.findSome? fun (name, location) =>
    (Annotations.find? p.annotations name).map fun a => (location, a)

/-- A file or an array of files. -/
def isFile (s : Schema) : Bool :=
  s.dataType = .file || s.items.any (·.dataType = .file)

/-- Where a value goes: where it is placed, or else objects and files into the form and the rest
into the query. What a method cannot take in a form goes into the query. -/
def locate (placed : Option Location) (s : Schema) (method : HttpMethod) : Location :=
  let location := placed.getD (if s.isObject || s.dataType = .file then .form else .query)
  if location = .form && !method.allowsBody then .query else location

/-- The schema of a parameter with all that is said about it. -/
def describe (p : Project) (doc : DocComment) (param : ParameterDecl)
    (placing : Option Annotation) (location : Location) (s : Schema) : Schema :=
  let described := { s with
    name := (placing.bind (·.firstValue? ["value", "name"])).getD param.name
    location := some location
    required :=
      location = Location.path || (placing.bind (·.flag? "required")).getD false ||
        Remarks.isRequired p.settings param.annotations
    default := placing.bind (·.firstValue? ["defaultValue", "default_value"])
    description :=
      Remarks.describeWithValues (Remarks.parameterDescription? param doc) s.ownOrItemValues }
  p.withMock (described.stampDate p param.typeText param.annotations .parameter) none

/-- What a parameter outside the body contributes: itself, or the properties of an object in the
query or in the form. -/
def ofParameter (p : Project) (doc : DocComment) (method : HttpMethod)
    (placed : Option (Location × Annotation)) (param : ParameterDecl) : Noting (List Schema) := do
  match ← Schema.resolve p ⟨.request, .parameter⟩ [] param.typeText with
  | none => return []
  | some s =>
    let location := locate (placed.map Prod.fst) s method
    if s.isObject && (location = .query || location = .form) then
      return s.children.map fun child => { child with location := some location }
    else return [describe p doc param (placed.map Prod.snd) location s]

def ofBody (p : Project) (doc : DocComment) (param : ParameterDecl) : Noting (Option Schema) := do
  let found ← Schema.resolve p ⟨.request, .body⟩ [] param.typeText
  return found.map fun s =>
    { s with
      description :=
        Remarks.describeWithValues (Remarks.parameterDescription? param doc) s.values }.stampDate
      p param.typeText param.annotations .body

/-- Adds the parts that a parameter contributes. Parameters that the framework provides are left
out unless an annotation places them, and only the first body counts. -/
def addParameter (p : Project) (doc : DocComment) (method : HttpMethod) (r : Request)
    (param : ParameterDecl) : Noting Request := do
  match placement? param with
  | some (.body, _) =>
    if r.body.isSome then return r
    else return { r with body := ← ofBody p doc param }
  | placed =>
    if placed.isNone &&
        p.catalog.matchesAny p.settings.ignoredParameterTypes param.typeText then
      return r
    else
      let found ← ofParameter p doc method placed param
      let (form, others) := found.partition (·.location = some .form)
      return { r with parameters := r.parameters ++ others, formFields := r.formFields ++ form }

def encodingOf (r : Request) (method : HttpMethod) : BodyEncoding :=
  if r.body.isSome then .json
  else if r.formFields.any isFile then .formData
  else if !r.formFields.isEmpty || method.allowsBody then .form
  else .raw

/-- The form fields as one object. -/
def aggregate : List Schema → Option Schema
  | [] => none
  | fields => some (Schema.withProperties (OrderedMap.ofEntries (fields.map fun f => (f.name, f))))

/-- What the method takes from a request by `method`. -/
def ofMethod (p : Project) (m : MethodDecl) (method : HttpMethod) : Noting Request := do
  let r ← m.parameters.foldlM (addParameter p m.doc method) {}
  return { r with
    encoding := encodingOf r method
    body := r.body.or (aggregate r.formFields) }

end Request

end EndpointDocs

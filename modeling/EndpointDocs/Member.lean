import EndpointDocs.DateFormat
import EndpointDocs.Overlay

namespace EndpointDocs

/-- A field or an accessor. -/
structure Member where
  name : String
  typeText : String
  annotations : List Annotation
  doc : DocComment
  initial : Option String

/-- Whether a schema documents what is sent or what comes back. -/
inductive Direction
  | request | response
  deriving DecidableEq

/-- What a schema documents. -/
structure Usage where
  direction : Direction
  carrier : Carrier := .body

namespace Member

/-- The property behind an accessor: `userName` for `getUserName`, `active` for `is_active`. -/
def accessorName? (method : String) : Option String :=
  let rest := (['g', 'e', 't'].isPrefixOf? method.toList).or (['i', 's'].isPrefixOf? method.toList)
  let name := rest.bind fun
    | '_' :: rest => some rest
    | c :: rest => if Chars.isUppercase c then some (c :: rest) else none
    | [] => none
  name.bind fun
    | c :: rest => some (String.ofList (Chars.toLower c ++ rest))
    | [] => none

/-- Whether a type is documented by its accessors rather than by its fields. -/
def hasAccessors (p : Project) (t : TypeDecl) : Bool :=
  t.kind = .interface || p.inheritsAny t p.settings.accessorBaseTypes

def ofField (f : FieldDecl) : Option Member :=
  if f.modifiers.isStatic then none
  else some ⟨f.name, f.typeText, f.annotations, f.doc, f.initial⟩

def ofMethod (m : MethodDecl) : Option Member :=
  if m.parameters.isEmpty && !m.modifiers.isStatic && !m.returnsVoid then
    (accessorName? m.name).map fun name => ⟨name, m.returnType, m.annotations, m.doc, none⟩
  else none

/-- The members of a type, inherited ones included. -/
def ofType (p : Project) (t : TypeDecl) : List Member :=
  if hasAccessors p t then (p.catalog.allMethods t).filterMap ofMethod
  else (p.catalog.allFields t).filterMap ofField

/-- Whether the member is documented under the correction of its type. -/
def isShown (m : Member) (override : Option TypeOverride) : Bool :=
  override.all (·.admits m.name) && !Remarks.isIgnored m.annotations m.doc

/-- The schema of the member's type with all that is said about the member. -/
def describe (m : Member) (p : Project) (u : Usage) (text : String) (s : Schema) : Schema :=
  let values := s.ownOrItemValues
  let described := { s with
    name := Remarks.memberName m.annotations m.name
    description :=
      Remarks.describeWithValues (Remarks.memberDescription? m.annotations m.doc) values
    values
    required := Remarks.isRequired p.settings m.annotations
    deprecated := Remarks.isDeprecated m.annotations m.doc
    default := match u.direction with
      | .request => Remarks.defaultValue? m.initial m.doc
      | .response => s.default }
  p.withMock (described.stampDate p text m.annotations u.carrier) (m.doc.tag? "mock")

/-- The schema with the correction of the field, found by the declared or by the written name. -/
def correct (m : Member) (override : Option TypeOverride) (s : Schema) : Schema :=
  match override.bind fun o => (o.fields.get? m.name).or (o.fields.get? s.name) with
  | none => s
  | some o => s.overlay o

end Member

end EndpointDocs

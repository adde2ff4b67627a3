import EndpointDocs.Catalog.Hierarchy
import EndpointDocs.Mock
import EndpointDocs.Remarks
import EndpointDocs.Scalar

namespace EndpointDocs

/-- A project to document: its types and the settings, with what the settings stand for worked out
once. -/
structure Project where
  catalog : Catalog
  settings : Settings
  scalars : List Scalar
  mocks : List Mock

namespace Project

def of (catalog : Catalog) (settings : Settings) : Project :=
  { catalog, settings, scalars := Scalar.table settings, mocks := Mock.ofSettings settings }

def inheritsAny (p : Project) (t : TypeDecl) (bases : List String) : Bool :=
  bases.any (p.catalog.inherits t)

def isCollection (p : Project) (t : TypeDecl) : Bool :=
  p.inheritsAny t p.settings.collectionTypes

def isMap (p : Project) (t : TypeDecl) : Bool :=
  p.inheritsAny t p.settings.mapTypes

/-- Whether the type is one of those above all others; only its full name counts. -/
def isTop (p : Project) (t : TypeDecl) : Bool :=
  t.name ∈ p.settings.topTypes

/-- The type of the schema that documents a type. -/
def classify (p : Project) (t : TypeDecl) : DataType :=
  if t.kind = .array || p.isCollection t then .array
  else if t.kind = .enumeration then .string
  else (Scalar.named? p.scalars t.name).getD .object

/-- The mock of a property, chosen unless it has one. -/
def withMock (p : Project) (s : Schema) (said : Option String) : Schema :=
  { s with mock := s.mock.or (Mock.choose p.settings.mocksEnabled p.mocks s said) }

end Project

end EndpointDocs

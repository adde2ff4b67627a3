import EndpointDocs.Annotation
import EndpointDocs.DocComment

namespace EndpointDocs

structure Modifiers where
  isPrivate : Bool := false
  isStatic : Bool := false
  deriving DecidableEq

structure FieldDecl where
  name : String
  typeText : String
  modifiers : Modifiers := {}
  annotations : List Annotation := []
  doc : DocComment := {}
  initial : Option String := none
  deriving DecidableEq

structure ParameterDecl where
  name : String
  typeText : String
  annotations : List Annotation := []
  deriving DecidableEq

structure MethodDecl where
  name : String
  /-- A void name or nothing when the method returns no value. -/
  returnType : String := ""
  parameters : List ParameterDecl := []
  modifiers : Modifiers := {}
  annotations : List Annotation := []
  doc : DocComment := {}
  /-- The declaration as it is shown to readers. -/
  signature : String := ""
  deriving DecidableEq

namespace MethodDecl

def returnsVoid (m : MethodDecl) : Bool :=
  TypeText.isVoid m.returnType

/-- The methods have one name and as many parameters. -/
def overrides (m other : MethodDecl) : Bool :=
  m.name = other.name && m.parameters.length = other.parameters.length

end MethodDecl

/-- A constant of an enumeration. -/
structure ConstantDecl where
  name : String
  description : Option String := none
  deriving DecidableEq

inductive TypeKind
  /-- A type that only promises methods. -/
  | interface
  /-- A type that holds data. -/
  | record
  | enumeration
  | array
  deriving DecidableEq

structure TypeDecl where
  /-- The full name, such as `com.demo.User` or `api::model::User`. -/
  name : String
  shortName : String := ""
  kind : TypeKind := .record
  parameters : List String := []
  /-- The type of the elements of an array. -/
  component : Option String := none
  fields : List FieldDecl := []
  methods : List MethodDecl := []
  constants : List ConstantDecl := []
  /-- References to the direct supertypes, as written. -/
  supertypes : List String := []
  annotations : List Annotation := []
  doc : DocComment := {}
  deriving DecidableEq

namespace TypeDecl

/-- A declaration named `name`, short name filled in, with nothing in it. -/
def named (name : String) (kind : TypeKind) : TypeDecl :=
  { name, shortName := TypeText.shortName name, kind }

/-- The declaration that stands for `component[]`. -/
def arrayOf (component : String) : TypeDecl :=
  { name := component ++ "[]"
    shortName := TypeText.shortName component ++ "[]"
    kind := .array
    component := some component }

/-- Fills in a missing short name. -/
def normalized (t : TypeDecl) : TypeDecl :=
  if t.shortName = "" then { t with shortName := TypeText.shortName t.name } else t

/-- Whether the name in `text` is the full or the short name of the type. -/
def isNamed (t : TypeDecl) (text : String) : Bool :=
  let name := TypeText.rawName text
  t.name = name || t.shortName = name

theorem normalized_name (t : TypeDecl) : t.normalized.name = t.name := by
  unfold normalized
  split <;> rfl

end TypeDecl

end EndpointDocs

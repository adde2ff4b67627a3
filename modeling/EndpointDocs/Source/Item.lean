import EndpointDocs.Source.Token

namespace EndpointDocs.Source

mutual

/-- A type, as far as a later step asks for it. -/
inductive TypeRef
  /-- A path; it is qualified if a type opens it, as in `<T as X>::Y`, and absolute if `::` does. -/
  | path (isQualified isAbsolute : Bool) (segments : List Segment)
  | reference (t : TypeRef)
  | slice (t : TypeRef)
  | array (t : TypeRef)
  | tuple (ts : List TypeRef)
  | paren (t : TypeRef)
  | someOf (bounds : List Bound)
  /-- Bounds that stand for a type, with `dyn` in front or without. -/
  | object (isMarked : Bool) (bounds : List Bound)
  | other

inductive Segment
  | mk (name : String) (arguments : Arguments)

inductive Arguments
  | none
  | angles (arguments : List Argument)
  | parens

/-- An argument of a path: a type, or a lifetime, a constant or a named argument. -/
inductive Argument
  | type (t : TypeRef)
  | other

inductive Bound
  | path (segments : List Segment)
  | lifetime
  | other

end

instance : Inhabited TypeRef := ⟨.other⟩

namespace Segment

def name : Segment → String
  | .mk name _ => name

def arguments : Segment → Arguments
  | .mk _ arguments => arguments

end Segment

def Arguments.isNone : Arguments → Bool
  | .none => true
  | _ => false

/-- What an expression says where it is the argument of an attribute. -/
inductive Value
  | literal (l : Literal)
  | list (vs : List Value)
  /-- A path, of which only the last name counts. -/
  | path (last : String)
  | reference (v : Value)
  | assignment (left right : Value)
  | other
  deriving Inhabited

/-- What stands behind the path of an attribute. -/
inductive AttributeBody
  | empty
  | value (v : Value)
  | list (inner : List Tree)

structure Attribute where
  path : List String
  isAbsolute : Bool := false
  body : AttributeBody

structure FieldItem where
  attributes : List Attribute
  isPublic : Bool
  name : String
  type : TypeRef

structure VariantItem where
  attributes : List Attribute
  name : String

/-- A parameter of a function. -/
inductive Input
  | receiver
  /-- The name is that of the first binding of the pattern, if it has one. -/
  | typed (attributes : List Attribute) (name : Option String) (type : TypeRef)

structure FunctionItem where
  attributes : List Attribute
  isPublic : Bool := false
  name : String
  inputs : List Input
  output : Option TypeRef

structure StructItem where
  attributes : List Attribute
  name : String
  parameters : List String
  /-- The fields that have names. -/
  fields : List FieldItem

structure EnumItem where
  attributes : List Attribute
  name : String
  variants : List VariantItem

structure TraitItem where
  attributes : List Attribute
  name : String
  parameters : List String
  supertraits : List Bound
  functions : List FunctionItem

structure ImplItem where
  /-- The path of the trait, if it is one that is implemented. -/
  traitPath : Option (List Segment)
  type : TypeRef
  functions : List FunctionItem

/-- The items that have a part in declaring types. -/
inductive Item
  | module (name : String) (items : List Item)
  | record (s : StructItem)
  | enumeration (e : EnumItem)
  | interface (t : TraitItem)
  | implementation (i : ImplItem)

end EndpointDocs.Source

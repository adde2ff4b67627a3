import EndpointDocs.OrderedMap
import EndpointDocs.Text

namespace EndpointDocs

inductive DataType
  | string | integer | number | boolean | array | object | file
  deriving DecidableEq

namespace DataType

def label : DataType → String
  | .string => "string"
  | .integer => "integer"
  | .number => "number"
  | .boolean => "boolean"
  | .array => "array"
  | .object => "object"
  | .file => "file"

def all : List DataType :=
  [.string, .integer, .number, .boolean, .array, .object, .file]

/-- The type that a label names, in letters of either case and with white space around. -/
def ofLabel? (text : String) : Option DataType :=
  let name := Text.lowercase (Text.trim text)
  all.find? (·.label = name)

/-- Scalars have no children. -/
def isScalar (t : DataType) : Bool :=
  t ≠ .array && t ≠ .object

end DataType

/-- Where a value travels in a request. -/
inductive Location
  | query | path | header | body | form
  deriving DecidableEq

/-- One of the values that are known beforehand, such as a constant of an enumeration. -/
structure KnownValue where
  value : String
  description : Option String := none
  deriving DecidableEq

def KnownValue.text (v : KnownValue) : String :=
  match v.description with
  | none | some "" => v.value
  | some description => v.value ++ ": " ++ description

/-- A node of a schema. It has items exactly if it is an array, and properties exactly if it is an
object; `isWellFormed` checks that. -/
structure Schema where
  name : String := ""
  dataType : DataType := .object
  dateFormat : Option String := none
  description : Option String := none
  location : Option Location := none
  required : Bool := false
  deprecated : Bool := false
  sample : Option String := none
  mock : Option String := none
  default : Option String := none
  values : Option (List KnownValue) := none
  items : Option Schema := none
  properties : Option (List (String × Schema)) := none
  deriving Inhabited

namespace Schema

/-- An object of which no properties are known. -/
def object : Schema :=
  { properties := some [] }

def scalar (t : DataType) : Schema :=
  { dataType := t }

def array (items : Schema) : Schema :=
  { dataType := .array, items := some items }

/-- The smallest well-formed node of the type. -/
def ofType : DataType → Schema
  | .object => object
  | .array => array object
  | t => scalar t

def isObject (s : Schema) : Bool :=
  s.dataType = .object

def isArray (s : Schema) : Bool :=
  s.dataType = .array

/-- Gives the node another type and the children that this type asks for, kept if it has them. -/
def setType (s : Schema) (t : DataType) : Schema :=
  match t with
  | .object => { s with dataType := t, items := none, properties := some (s.properties.getD []) }
  | .array => { s with dataType := t, items := some (s.items.getD object), properties := none }
  | _ => { s with dataType := t, items := none, properties := none }

def children (s : Schema) : List Schema :=
  (s.properties.getD []).map Prod.snd

/-- The values known of the node, or else of its items. -/
def ownOrItemValues (s : Schema) : Option (List KnownValue) :=
  s.values.or (s.items.bind (·.values))

/-- The type of a node agrees with the children that it has. -/
def hasOwnForm (t : DataType) (items : Option Schema) (properties : Option (List (String × Schema))) :
    Bool :=
  match t with
  | .array => items.isSome && properties.isNone
  | .object => items.isNone && properties.isSome
  | _ => items.isNone && properties.isNone

mutual

/-- Every node has items exactly if it is an array, and properties exactly if it is an object. -/
def isWellFormed : Schema → Bool
  | { dataType, items, properties, .. } =>
    hasOwnForm dataType items properties && itemsWellFormed items && mapWellFormed properties

def itemsWellFormed : Option Schema → Bool
  | none => true
  | some s => s.isWellFormed

def mapWellFormed : Option (List (String × Schema)) → Bool
  | none => true
  | some entries => entriesWellFormed entries

def entriesWellFormed : List (String × Schema) → Bool
  | [] => true
  | e :: es => entryWellFormed e && entriesWellFormed es

def entryWellFormed : String × Schema → Bool
  | (_, s) => s.isWellFormed

end

end Schema

end EndpointDocs

import EndpointDocs.TypeText

namespace EndpointDocs

/-- An annotation. The values of an attribute are kept as texts; a value without a key stands under
`value`. -/
structure Annotation where
  name : String
  attributes : OrderedMap (List String) := []
  deriving DecidableEq

namespace Annotation

/-- Adds a value to the attribute `key`. -/
def push (a : Annotation) (key value : String) : Annotation :=
  { a with attributes := a.attributes.put key ((a.attributes.get? key).getD [] ++ [value]) }

def shortName (a : Annotation) : String :=
  TypeText.shortName a.name

/-- Whether the annotation goes by `name`, up to the paths in front of both. -/
def is (a : Annotation) (name : String) : Bool :=
  a.shortName = TypeText.shortName name

def values (a : Annotation) (key : String) : List String :=
  (a.attributes.get? key).getD []

/-- The first value of `key` that has content. -/
def value? (a : Annotation) (key : String) : Option String :=
  (a.values key).findSome? Text.content?

/-- The value of the first of `keys` that has one. -/
def firstValue? (a : Annotation) (keys : List String) : Option String :=
  keys.findSome? a.value?

/-- Whether the value of `key` spells `true`, in ASCII letters of either case. -/
def flag? (a : Annotation) (key : String) : Option Bool :=
  (a.value? key).map fun v => v.toList.map Chars.asciiLower = "true".toList

end Annotation

/-- The annotations of a declaration. -/
abbrev Annotations := List Annotation

namespace Annotations

/-- The first annotation that goes by `name`. -/
def find? (as : Annotations) (name : String) : Option Annotation :=
  List.find? (·.is name) as

def has (as : Annotations) (name : String) : Bool :=
  (find? as name).isSome

/-- The annotation found for the first of `names` that finds one. -/
def findAny? (as : Annotations) (names : List String) : Option Annotation :=
  names.findSome? (find? as)

/-- The annotations together with those of `others` that go by no name among them. -/
def mergeMissing (as others : Annotations) : Annotations :=
  others.foldl (fun as a => if has as a.name then as else as ++ [a]) as

end Annotations

end EndpointDocs

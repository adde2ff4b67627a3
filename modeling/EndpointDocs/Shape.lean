import EndpointDocs.Project

namespace EndpointDocs

/-- What references to types mean as far as it can be told without opening a type: lists and maps of
further references down to scalars, unknown types and types to be opened. -/
inductive Shape
  /-- No value. -/
  | nothing
  /-- A value of which only the type is known. -/
  | plain (t : DataType)
  /-- A scalar with the values known of it. -/
  | known (t : DataType) (values : Option (List KnownValue))
  | list (items : Shape)
  | map (value : Shape)
  /-- A type of the catalog, the name by which it was referred to, and the arguments. -/
  | members (name : String) (type : TypeDecl) (arguments : List String)

namespace Shape

/-- What a reference says by itself: a shape, or the reference from which its shape is made. -/
inductive Step (text : String)
  | settled (s : Shape)
  | list (items : String) (shorter : items.length < text.length)
  | map (value : String) (shorter : value.length < text.length)
  /-- A collection whose elements are settled by the collection type called `owner`. -/
  | elements (owner : String) (items : String)

/-- The shape of a reference. The elements of each collection type in `left` are followed once. -/
def follow (look : (text : String) → Step text) (left : List String) (text : String) :
    Option Shape :=
  match look text with
  | .settled s => some s
  | .list items _ => (follow look left items).map .list
  | .map value _ => (follow look left value).map .map
  | .elements owner items =>
    if owner ∈ left then (follow look (Catalog.without owner left) items).map .list else none
termination_by (left.length, text.length)
decreasing_by
  · exact Prod.Lex.right _ ‹_›
  · exact Prod.Lex.right _ ‹_›
  · rename_i h
    exact Prod.Lex.left _ _ (Catalog.without_length_lt h)

/-- The constants of an enumeration. -/
def constantsOf (t : TypeDecl) : Option (List KnownValue) :=
  if t.kind = .enumeration && !t.constants.isEmpty then
    some (t.constants.map fun c => ⟨c.name, c.description⟩)
  else none

/-- The elements of a collection that is written without arguments: what is bound to the first
parameter of the nearest ancestor that has one, unless that is a parameter of the collection. -/
def inheritedElement (p : Project) (t : TypeDecl) : String :=
  match (p.catalog.ancestors t).findSome? fun (_, b) => b.values.head? with
  | some element => if element ∈ t.parameters then "" else element
  | none => ""

/-- What a reference to `t` says. -/
def stepType (p : Project) (text : String) (t : TypeDecl) : Step text :=
  if p.classify t = .file then .settled (.plain .file)
  else if p.isMap t || p.isTop t then
    match h : TypeText.arguments text with
    | _ :: value :: _ => .map value (TypeText.arguments_length (by simp [h]))
    | _ => .settled (.plain .object)
  else
    match p.classify t with
    | .array =>
      match t.component with
      | some component => .elements t.name component
      | none =>
        match h : TypeText.arguments text with
        | items :: _ => .list items (TypeText.arguments_length (by simp [h]))
        | [] => .elements t.name (inheritedElement p t)
    | .object => .settled (.members (TypeText.rawName text) t (TypeText.arguments text))
    | scalar => .settled (.known scalar (constantsOf t))

/-- What a reference says: nothing is an unknown object, then come arrays, void names, scalars by
their full names, types of the catalog, and scalars by their last segment. -/
def step (p : Project) (text : String) : Step text :=
  if Text.trim text = "" then .settled (.plain .object)
  else
    match h : TypeText.component? text with
    | some items => .list items (TypeText.component?_length h)
    | none =>
      if TypeText.isVoid text then .settled .nothing
      else
        match Scalar.named? p.scalars text with
        | some t => .settled (.plain t)
        | none =>
          match p.catalog.find? text with
          | some t => stepType p text t
          | none => .settled (.plain ((Scalar.loose? p.scalars text).getD .object))

/-- The shape of a reference. There is none exactly where following the elements of collections
comes back to a collection on the way. -/
def ofText? (p : Project) (text : String) : Option Shape :=
  follow (step p) (p.catalog.types.map (·.name)) text

end Shape

end EndpointDocs

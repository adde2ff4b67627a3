import EndpointDocs.Catalog.Library
import EndpointDocs.Source.Annotate
import EndpointDocs.Source.File
import EndpointDocs.Source.TypeName

namespace EndpointDocs.Source

/-- The text of a function's signature, as it is shown to readers. -/
def signatureText (m : MethodDecl) : String :=
  let parameters := Text.join ", " (m.parameters.map fun p => p.name ++ ": " ++ p.typeText)
  let head := "fn " ++ m.name ++ "(" ++ parameters ++ ")"
  if m.returnsVoid then head else head ++ " -> " ++ m.returnType

/-- A parameter that is not the receiver. One without a name is known by its place. -/
def parameterDecl? : Input × Nat → Option ParameterDecl
  | (.receiver, _) => none
  | (.typed attributes name type, index) =>
    some {
      name := name.getD ("arg" ++ String.ofList (Nat.toDigits 10 index))
      typeText := type.text
      annotations := annotationsOf attributes }

namespace FunctionItem

def declare (f : FunctionItem) (isPrivate : Bool) : MethodDecl :=
  let m : MethodDecl := {
    name := f.name
    returnType := (f.output.map TypeRef.text).getD "void"
    parameters := f.inputs.zipIdx.filterMap parameterDecl?
    modifiers := { isPrivate, isStatic := !f.inputs.any Reader.isReceiver }
    annotations := annotationsOf f.attributes
    doc := docOf f.attributes }
  { m with signature := signatureText m }

end FunctionItem

/-- The name of what is declared inside of modules. -/
def qualifiedName (modules : List String) (name : String) : String :=
  Text.join "::" (modules ++ [name])

def FieldItem.declare (f : FieldItem) : FieldDecl :=
  { name := f.name
    typeText := f.type.text
    modifiers := { isPrivate := !f.isPublic }
    annotations := annotationsOf f.attributes
    doc := docOf f.attributes }

def StructItem.declare (s : StructItem) (modules : List String) : TypeDecl :=
  { name := qualifiedName modules s.name
    shortName := s.name
    parameters := s.parameters
    fields := s.fields.map FieldItem.declare
    annotations := annotationsOf s.attributes
    doc := docOf s.attributes }

/-- A constant goes by the name that it is stored under. -/
def VariantItem.declare (v : VariantItem) : ConstantDecl :=
  let stored := (Annotations.find? (annotationsOf v.attributes) "JsonProperty").bind (·.value? "value")
  { name := stored.getD v.name, description := (docOf v.attributes).title? }

def EnumItem.declare (e : EnumItem) (modules : List String) : TypeDecl :=
  { name := qualifiedName modules e.name
    shortName := e.name
    kind := .enumeration
    constants := e.variants.map VariantItem.declare
    annotations := annotationsOf e.attributes
    doc := docOf e.attributes }

def TraitItem.declare (t : TraitItem) (modules : List String) : TypeDecl :=
  { name := qualifiedName modules t.name
    shortName := t.name
    kind := .interface
    parameters := t.parameters
    methods := t.functions.map (·.declare false)
    supertypes := (t.supertraits.filterMap Bound.text?).filter (· ≠ "")
    annotations := annotationsOf t.attributes
    doc := docOf t.attributes }

/-- What is implemented for a type. -/
structure Extension where
  modules : List String
  /-- The type, as it is written there. -/
  target : String
  supertype : Option String
  methods : List MethodDecl

/-- Methods of an implementation of a trait are as public as the trait. -/
def ImplItem.declare (i : ImplItem) (modules : List String) : Extension :=
  { modules
    target := TypeText.rawName i.type.text
    supertype := i.traitPath.map segmentsText
    methods := i.functions.map fun f => f.declare (i.traitPath.isNone && !f.isPublic) }

/-- What has been declared so far. Of two types with one name the later one counts. -/
structure Declared where
  types : OrderedMap TypeDecl := []
  extensions : List Extension := []

namespace Declared

def addType (d : Declared) (t : TypeDecl) : Declared :=
  { d with types := d.types.put t.name t }

/-- An implementation for a type without a name is left out. -/
def addExtension (d : Declared) (e : Extension) : Declared :=
  if e.target = "" then d else { d with extensions := d.extensions ++ [e] }

mutual

def addItem (modules : List String) (d : Declared) : Item → Declared
  | .module name items => addItems (modules ++ [name]) d items
  | .record s => d.addType (s.declare modules)
  | .enumeration e => d.addType (e.declare modules)
  | .interface t => d.addType (t.declare modules)
  | .implementation i => d.addExtension (i.declare modules)

def addItems (modules : List String) (d : Declared) : List Item → Declared
  | [] => d
  | i :: is => addItems modules (addItem modules d i) is

end

/-- The type that is meant: by its full name, by its name in the module or by its short name. -/
def target? (types : OrderedMap TypeDecl) (e : Extension) : Option TypeDecl :=
  (types.get? e.target).or <|
    (types.get? (qualifiedName e.modules e.target)).or <|
      types.values.find? (·.shortName = TypeText.shortName e.target)

def extend (t : TypeDecl) (e : Extension) : TypeDecl :=
  let added := e.supertype.toList.filter (· ∉ t.supertypes)
  { t with supertypes := t.supertypes ++ added, methods := t.methods ++ e.methods }

/-- The types with all that is implemented for them. -/
def finish (d : Declared) : List TypeDecl :=
  let apply (types : OrderedMap TypeDecl) (e : Extension) : OrderedMap TypeDecl :=
    match target? types e with
    | some t => types.put t.name (extend t e)
    | none => types
  (d.extensions.foldl apply d.types).values

end Declared

/-- The types that files declare together. -/
def declarations (files : List File) : List TypeDecl :=
  (files.foldl (fun d f => d.addItems [] f.items) ({} : Declared)).finish

/-- The types that files declare, which are records, enumerations and traits, with those of the
library. What is implemented for a type belongs to it, wherever that is written. -/
def catalogOf (files : List File) : Catalog :=
  Catalog.ofProject (declarations files)

end EndpointDocs.Source

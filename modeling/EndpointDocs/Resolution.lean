import EndpointDocs.Member
import EndpointDocs.Shape

namespace EndpointDocs

/-- Results with the warnings given on the way, and no result where following references does not
end. -/
abbrev Noting (α : Type) := StateT (List Warning) Option α

namespace Noting

def warn (title message : String) : Noting Unit :=
  modify (· ++ [⟨title, message⟩])

/-- No result. -/
def endless {α : Type} : Noting α :=
  fun _ => none

end Noting

/-- The full names of the types that are open, the innermost first. -/
abbrev Chain := List String

namespace Chain

def push (c : Chain) (name : String) : Chain :=
  name :: c

def has (c : Chain) (name : String) : Bool :=
  name ∈ c

end Chain

namespace Schema

/-- The name under which the values of a map are documented. -/
def mapKey : String := "KEY"

def mapOf (value : Schema) : Schema :=
  { object with properties := some [(mapKey, { value with name := mapKey })] }

def withProperties (properties : OrderedMap Schema) : Schema :=
  { object with properties := some properties }

/-- The schema of a shape, `none` where there is no value; `members` makes the schema of a type. -/
def ofShape (members : String → TypeDecl → List String → Noting Schema) :
    Shape → Noting (Option Schema)
  | .nothing => pure none
  | .plain t => pure (some (ofType t))
  | .known t values => pure (some { scalar t with values })
  | .list items => do return some (array ((← ofShape members items).getD object))
  | .map value => do return some (((← ofShape members value).map mapOf).getD object)
  | .members name t arguments => do return some (← members name t arguments)

/-- The type that a `see` tag of `t` refers to, if it is `t` itself, an ancestor or a descendant. -/
def related? (p : Project) (t : TypeDecl) (reference : String) : Option TypeDecl :=
  (p.catalog.find? reference).filter fun target =>
    p.catalog.inherits target t.name || p.catalog.inherits t target.name

/-- Takes over the properties of the types that the `see` tags of `t` refer to. -/
def seen (p : Project) (resolve : String → Noting (Option Schema)) (name : String) (t : TypeDecl) :
    Noting (OrderedMap Schema) :=
  ((t.doc.tagsNamed "see").filterMap fun tag => Text.content? tag.value).foldlM
    (fun properties reference =>
      match related? p t reference with
      | none => do
        Noting.warn "Parse skipped" (name ++ " @see " ++ reference)
        return properties
      | some target => do
        let found ← resolve target.name
        return properties.putAll ((found.bind (·.properties)).getD []))
    []

/-- Adds the property of a member, whose type is read with the parameters of its owner bound. -/
def addMember (p : Project) (u : Usage) (resolve : String → Noting (Option Schema))
    (override : Option TypeOverride) (bindings : TypeText.Bindings)
    (properties : OrderedMap Schema) (m : Member) : Noting (OrderedMap Schema) := do
  if m.isShown override then
    let text := TypeText.substitute bindings m.typeText
    match ← resolve text with
    | none => return properties
    | some s =>
      let s := m.correct override (m.describe p u text s)
      return properties.put s.name s
  else return properties

/-- The properties of a type: those that its `see` tags take over, then those of its members. -/
def propertiesOf (p : Project) (u : Usage) (resolve : String → Noting (Option Schema))
    (name : String) (t : TypeDecl) (arguments : List String) : Noting (OrderedMap Schema) := do
  let taken ← seen p resolve name t
  let override := p.settings.typeOverride? name (some t)
  let bindings := TypeText.bind t.parameters arguments
  (Member.ofType p t).foldlM (addMember p u resolve override bindings) taken

/-- The schema of a type below the types in the chain; `deeper` resolves references below it. -/
def openType (deeper : Chain → String → Noting (Option Schema)) (p : Project) (u : Usage)
    (chain : Chain) (name : String) (t : TypeDecl) (arguments : List String) : Noting Schema :=
  if chain.has t.name then pure object
  else withProperties <$> propertiesOf p u (deeper (chain.push t.name)) name t arguments

/-- Resolves a reference below the types in the chain; `deeper` does so below one type more. -/
def resolveBy (deeper : Chain → String → Noting (Option Schema)) (p : Project) (u : Usage)
    (chain : Chain) (text : String) : Noting (Option Schema) :=
  match Shape.ofText? p text with
  | none => Noting.endless
  | some shape =>
    ofShape (openType deeper p u chain) shape

/-- Resolves where at most `room` more types can be opened below each other. -/
def resolveWithin (p : Project) (u : Usage) : Nat → Chain → String → Noting (Option Schema)
  | 0 => resolveBy (fun _ _ => Noting.endless) p u
  | room + 1 => resolveBy (resolveWithin p u room) p u

/-- The types of the catalog that are not open. -/
def room (p : Project) (chain : Chain) : Nat :=
  (p.catalog.types.filter fun t => !chain.has t.name).length

/-- The schema of a reference below the types in the chain, `none` for no value. A type that is open
already is documented as an object without properties. There is no answer exactly where the shape of
a reference on the way has none. -/
def resolve (p : Project) (u : Usage) (chain : Chain) (text : String) : Noting (Option Schema) :=
  resolveWithin p u (room p chain) chain text

end Schema

end EndpointDocs

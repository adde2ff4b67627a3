import EndpointDocs.Declaration

namespace EndpointDocs

/-- Types by name. A type is found by its full name or by its short name; among types of one short
name the first one counts, but a project's type goes before a library's. -/
structure Catalog where
  /-- The types in the order in which their full names first came in. -/
  types : List TypeDecl := []
  /-- The full name that each short name stands for. -/
  shortNames : OrderedMap String := []
  /-- The full names of the types of libraries. -/
  library : List String := []

namespace Catalog

/-- Takes the place of the type of the same full name, or comes last. -/
def place (t : TypeDecl) : List TypeDecl → List TypeDecl
  | [] => [t]
  | u :: us => if u.name = t.name then t :: us else u :: place t us

def isLibrary (c : Catalog) (name : String) : Bool :=
  name ∈ c.library

/-- Whether the type called `name` may take over a short name: nobody has it, or a library's type
has it and this one is the project's. -/
def mayTake (c : Catalog) (short name : String) : Bool :=
  match c.shortNames.get? short with
  | none => true
  | some owner => c.isLibrary owner && !c.isLibrary name

/-- Adds a type, or replaces the one of the same full name. -/
def insert (c : Catalog) (t : TypeDecl) : Catalog :=
  let t := t.normalized
  { c with
    types := place t c.types
    shortNames :=
      if c.mayTake t.shortName t.name then c.shortNames.put t.shortName t.name else c.shortNames }

def insertAll (c : Catalog) (ts : List TypeDecl) : Catalog :=
  ts.foldl insert c

def size (c : Catalog) : Nat :=
  c.types.length

def byName? (c : Catalog) (name : String) : Option TypeDecl :=
  c.types.find? (·.name = name)

def byShortName? (c : Catalog) (short : String) : Option TypeDecl :=
  (c.shortNames.get? short).bind c.byName?

/-- The type that a reference means, its arguments set aside: by full name, then by short name. -/
def find? (c : Catalog) (text : String) : Option TypeDecl :=
  if TypeText.rawName text = "" then none
  else
    (c.byName? (TypeText.rawName text)).or
      (c.byShortName? (TypeText.shortName (TypeText.rawName text)))

/-- The project's own types. -/
def projectTypes (c : Catalog) : List TypeDecl :=
  c.types.filter fun t => !c.isLibrary t.name

/-- Whether a reference means one of the entries. A type of the catalog goes by its full name
alone; any other name may also be the last part of an entry. -/
def matchesAny (c : Catalog) (entries : List String) (text : String) : Bool :=
  let name := TypeText.rawName text
  if name = "" then false
  else
    let unqualified := TypeText.shortName name = name
    match (c.byName? name).or (if unqualified then c.byShortName? name else none) with
    | some t => entries.any fun e => TypeText.rawName e = t.name
    | none => entries.any fun e => TypeText.isPathSuffix (TypeText.rawName e) name

theorem mem_of_byName? {c : Catalog} {name : String} {t : TypeDecl} (h : c.byName? name = some t) :
    t ∈ c.types :=
  List.mem_of_find?_eq_some h

theorem mem_of_byShortName? {c : Catalog} {short : String} {t : TypeDecl}
    (h : c.byShortName? short = some t) : t ∈ c.types := by
  obtain ⟨name, _, hname⟩ := Option.bind_eq_some_iff.1 h
  exact mem_of_byName? hname

theorem mem_of_find? {c : Catalog} {text : String} {t : TypeDecl} (h : c.find? text = some t) :
    t ∈ c.types := by
  unfold find? at h
  split at h
  · cases h
  · rcases Option.or_eq_some_iff.1 h with h | ⟨_, h⟩
    · exact mem_of_byName? h
    · exact mem_of_byShortName? h

end Catalog

end EndpointDocs

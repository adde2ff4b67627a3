import EndpointDocs.Catalog

namespace EndpointDocs.Catalog

/-- The names without `name`. -/
def without (name : String) (names : List String) : List String :=
  names.filter (· ≠ name)

theorem without_length_le (name : String) (names : List String) :
    (without name names).length ≤ names.length :=
  List.length_filter_le _ _

theorem without_length_lt {name : String} {names : List String} (h : name ∈ names) :
    (without name names).length < names.length :=
  List.length_filter_lt_length_iff_exists.2 ⟨name, h, by simp⟩

/-- Whether the search along the references in the queue meets `base`, as a written name, in full or
by its last segment, or as a type of that name. Only names in `left` are looked at, each of them at
most once, so that the search ends on cyclic hierarchies as well. -/
def meets (find? : String → Option TypeDecl) (base : String) (left queue : List String) : Bool :=
  match queue with
  | [] => false
  | reference :: queue =>
    let name := TypeText.rawName reference
    if name ∈ left then
      if name = base || TypeText.shortName name = base then true
      else
        match find? name with
        | none => meets find? base (without name left) queue
        | some parent =>
          parent.isNamed base ||
            meets find? base (without parent.name (without name left)) (queue ++ parent.supertypes)
    else meets find? base left queue
termination_by (left.length, queue.length)
decreasing_by
  · rename_i h _
    exact Prod.Lex.left _ _ (without_length_lt h)
  · rename_i h _
    exact Prod.Lex.left _ _ (Nat.lt_of_le_of_lt (without_length_le _ _) (without_length_lt h))
  · exact Prod.Lex.right _ (Nat.lt_succ_self _)

/-- All names that the supertypes of `t` and of the catalog's types are written with. -/
def supertypeNames (c : Catalog) (t : TypeDecl) : List String :=
  (t.supertypes ++ c.types.flatMap (·.supertypes)).map TypeText.rawName

/-- Whether `t` is `base` or has it among its supertypes, at any distance. A supertype that is not
in the catalog still counts by the name it is written with. -/
def inherits (c : Catalog) (t : TypeDecl) (base : String) : Bool :=
  let base := TypeText.rawName base
  t.isNamed base || meets c.find? base (without t.name (c.supertypeNames t)) t.supertypes

/-- The types that the references lead to, each with the values of its parameters. A reference
comes with the values of the parameters that occur in it. Only types named in `left` are taken. -/
def above (find? : String → Option TypeDecl) (left : List String)
    (queue : List (String × TypeText.Bindings)) : List (TypeDecl × TypeText.Bindings) :=
  match queue with
  | [] => []
  | (reference, outer) :: queue =>
    let written := TypeText.substitute outer reference
    match find? written with
    | none => above find? left queue
    | some parent =>
      if parent.name ∈ left then
        let bindings := TypeText.bind parent.parameters (TypeText.arguments written)
        (parent, bindings) ::
          above find? (without parent.name left)
            (queue ++ parent.supertypes.map fun s => (s, bindings))
      else above find? left queue
termination_by (left.length, queue.length)
decreasing_by
  · exact Prod.Lex.right _ (Nat.lt_succ_self _)
  · rename_i h
    exact Prod.Lex.left _ _ (without_length_lt h)
  · exact Prod.Lex.right _ (Nat.lt_succ_self _)

/-- The types above `t`, nearest first, each with the values of its parameters. -/
def ancestors (c : Catalog) (t : TypeDecl) : List (TypeDecl × TypeText.Bindings) :=
  above c.find? (without t.name (c.types.map (·.name))) (t.supertypes.map fun s => (s, []))

/-- A method with the parameters of its type replaced. -/
def bindMethod (b : TypeText.Bindings) (m : MethodDecl) : MethodDecl :=
  { m with
    returnType := TypeText.substitute b m.returnType
    parameters := m.parameters.map fun p => { p with typeText := TypeText.substitute b p.typeText } }

/-- Adds the annotations of `others`, parameter by parameter. -/
def mergeParameters : List ParameterDecl → List ParameterDecl → List ParameterDecl
  | p :: ps, q :: qs =>
    { p with annotations := Annotations.mergeMissing p.annotations q.annotations } ::
      mergeParameters ps qs
  | ps, _ => ps

/-- A method with the annotations and the documentation that it lacks and an overridden one has. -/
def mergeInherited (own inherited : MethodDecl) : MethodDecl :=
  { own with
    annotations := Annotations.mergeMissing own.annotations inherited.annotations
    parameters := mergeParameters own.parameters inherited.parameters
    doc := own.doc.mergeMissing inherited.doc }

/-- Merges an inherited method into the first one that overrides it, or adds it at the end. -/
def addInherited (inherited : MethodDecl) : List MethodDecl → List MethodDecl
  | [] => [inherited]
  | m :: ms =>
    if m.overrides inherited then mergeInherited m inherited :: ms
    else m :: addInherited inherited ms

/-- The methods of `t`, its own first, then those of its ancestors that it does not override. -/
def allMethods (c : Catalog) (t : TypeDecl) : List MethodDecl :=
  ((c.ancestors t).flatMap fun (a, b) => a.methods.map (bindMethod b)).foldl
    (fun ms m => addInherited m ms) t.methods

/-- Adds an inherited field unless there is one of its name. -/
def addField (fields : List FieldDecl) (inherited : FieldDecl) : List FieldDecl :=
  if fields.any (·.name = inherited.name) then fields else fields ++ [inherited]

/-- The fields of `t`, its own first, then those of its ancestors that no field hides. -/
def allFields (c : Catalog) (t : TypeDecl) : List FieldDecl :=
  ((c.ancestors t).flatMap fun (a, b) =>
    a.fields.map fun f => { f with typeText := TypeText.substitute b f.typeText }).foldl
    addField t.fields

end EndpointDocs.Catalog

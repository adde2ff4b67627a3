import EndpointDocs.Proofs.Catalog.Lookup
import EndpointDocs.Proofs.Catalog.Search
import EndpointDocs.Proofs.Member.Described
import EndpointDocs.Resolution

namespace EndpointDocs

open TypeText

/-- The declaration with another comment. -/
def TypeDecl.redoc (docs : TypeDecl → DocComment) (t : TypeDecl) : TypeDecl :=
  { t with doc := docs t }

/-- The project with other comments on its types. -/
abbrev Project.redoc (p : Project) (docs : TypeDecl → DocComment) : Project :=
  p.mapTypes (·.redoc docs)

variable {p : Project} {docs : TypeDecl → DocComment} {t : TypeDecl}

theorem TypeDecl.redoc_name (docs : TypeDecl → DocComment) (t : TypeDecl) :
    (t.redoc docs).name = t.name :=
  rfl

namespace Catalog

variable {find? : String → Option TypeDecl} {left : List String}

private theorem meets_redoc (find? : String → Option TypeDecl) (base : String)
    (left queue : List String) : meets (fun s => (find? s).map (·.redoc docs)) base left queue =
      meets find? base left queue := by
  induction left, queue using meets_induction find? base with
  | nil left => rw [meets, meets]
  | hits left r queue hmem hhit => rw [meets_of_hits hmem hhit, meets_of_hits hmem hhit]
  | unknown left r queue hmem hmiss hfind ih =>
    have hfind' : (find? (rawName r)).map (·.redoc docs) = none := by rw [hfind, Option.map_none]
    rw [meets_of_none hmem hmiss hfind', meets_of_none hmem hmiss hfind, ih]
  | enter left r queue t hmem hmiss hfind ih =>
    have hfind' : (find? (rawName r)).map (·.redoc docs) = some (t.redoc docs) := by
      rw [hfind, Option.map_some]
    rw [meets_of_some hmem hmiss hfind', meets_of_some hmem hmiss hfind, ← ih]
    rfl
  | read left r queue hmem ih => rw [meets_of_not_mem hmem, meets_of_not_mem hmem, ih]

private theorem above_redoc (find? : String → Option TypeDecl) (left : List String)
    (queue : List (String × Bindings)) :
    above (fun s => (find? s).map (·.redoc docs)) left queue =
      (above find? left queue).map fun e => (e.1.redoc docs, e.2) := by
  induction left, queue using above_induction find? with
  | nil left => rw [above, above, List.map_nil]
  | unknown left r b queue hfind ih =>
    have hfind' : (find? (substitute b r)).map (·.redoc docs) = none := by
      rw [hfind, Option.map_none]
    rw [above_of_none hfind', above_of_none hfind, ih]
  | enter left r b queue t hfind hmem ih =>
    have hfind' : (find? (substitute b r)).map (·.redoc docs) = some (t.redoc docs) := by
      rw [hfind, Option.map_some]
    have hname : (t.redoc docs).name ∈ left := hmem
    rw [above_of_some hfind', above_of_some hfind, if_pos hname, if_pos hmem, List.map_cons, ← ih]
    rfl
  | read left r b queue t hfind hmem ih =>
    have hfind' : (find? (substitute b r)).map (·.redoc docs) = some (t.redoc docs) := by
      rw [hfind, Option.map_some]
    have hname : (t.redoc docs).name ∉ left := hmem
    rw [above_of_some hfind', above_of_some hfind, if_neg hname, if_neg hmem, ih]

end Catalog

namespace Project

theorem find?_redoc (text : String) :
    (p.redoc docs).catalog.find? text = (p.catalog.find? text).map (·.redoc docs) :=
  find?_mapTypes (TypeDecl.redoc_name docs) text

theorem inherits_redoc (t : TypeDecl) :
    (p.redoc docs).catalog.inherits (t.redoc docs) = p.catalog.inherits t := by
  funext base
  have hnames : (p.redoc docs).catalog.supertypeNames (t.redoc docs) =
      p.catalog.supertypeNames t := by
    simp [Catalog.supertypeNames, mapTypes, TypeDecl.redoc, List.flatMap_map]
  have hfind : (p.redoc docs).catalog.find? = fun s => (p.catalog.find? s).map (·.redoc docs) :=
    funext find?_redoc
  rw [Catalog.inherits, hnames, hfind, Catalog.meets_redoc]
  rfl

private theorem ancestors_redoc (t : TypeDecl) :
    (p.redoc docs).catalog.ancestors (t.redoc docs) =
      (p.catalog.ancestors t).map fun e => (e.1.redoc docs, e.2) := by
  have hnames : (p.redoc docs).catalog.types.map (·.name) = p.catalog.types.map (·.name) := by
    simp [mapTypes, TypeDecl.redoc]
  have hfind : (p.redoc docs).catalog.find? = fun s => (p.catalog.find? s).map (·.redoc docs) :=
    funext find?_redoc
  rw [Catalog.ancestors, hnames, hfind, Catalog.above_redoc]
  rfl

private theorem inheritsAny_redoc (t : TypeDecl) (bases : List String) :
    (p.redoc docs).inheritsAny (t.redoc docs) bases = p.inheritsAny t bases := by
  rw [inheritsAny, inherits_redoc, inheritsAny]

private theorem classify_redoc (t : TypeDecl) :
    (p.redoc docs).classify (t.redoc docs) = p.classify t := by
  rw [classify, classify, isCollection, isCollection, inheritsAny_redoc]
  rfl

private theorem isMap_redoc (t : TypeDecl) : (p.redoc docs).isMap (t.redoc docs) = p.isMap t :=
  inheritsAny_redoc t _

end Project

theorem Member.ofType_redoc (t : TypeDecl) :
    Member.ofType (p.redoc docs) (t.redoc docs) = Member.ofType p t := by
  have haccessors : hasAccessors (p.redoc docs) (t.redoc docs) = hasAccessors p t := by
    rw [hasAccessors, hasAccessors, Project.inheritsAny_redoc]
    rfl
  have hmethods : (p.redoc docs).catalog.allMethods (t.redoc docs) = p.catalog.allMethods t := by
    rw [Catalog.allMethods, Catalog.allMethods, Project.ancestors_redoc, List.flatMap_map]
    rfl
  have hfields : (p.redoc docs).catalog.allFields (t.redoc docs) = p.catalog.allFields t := by
    rw [Catalog.allFields, Catalog.allFields, Project.ancestors_redoc, List.flatMap_map]
    rfl
  rw [ofType, ofType, haccessors, hmethods, hfields]

theorem Member.describe_redoc (m : Member) (u : Usage) (text : String) (s : Schema) :
    m.describe (p.redoc docs) u text s = m.describe p u text s :=
  describe_mapTypes m p u text s (TypeDecl.redoc_name docs)

namespace Shape

/-- What a reference says when the type that it opens has another comment. -/
def Step.redoc (docs : TypeDecl → DocComment) {text : String} : Step text → Step text
  | .settled (.members name t arguments) => .settled (.members name (t.redoc docs) arguments)
  | other => other

private theorem inheritedElement_redoc (t : TypeDecl) :
    inheritedElement (p.redoc docs) (t.redoc docs) = inheritedElement p t := by
  rw [inheritedElement, Project.ancestors_redoc, List.findSome?_map, inheritedElement]
  rfl

private theorem stepType_redoc (text : String) (t : TypeDecl) :
    stepType (p.redoc docs) text (t.redoc docs) = (stepType p text t).redoc docs := by
  unfold stepType
  have htop : (p.redoc docs).isTop (t.redoc docs) = p.isTop t := rfl
  have hname : (t.redoc docs).name = t.name := rfl
  have hcomponent : (t.redoc docs).component = t.component := rfl
  simp only [Project.classify_redoc, Project.isMap_redoc, inheritedElement_redoc, htop, hname,
    hcomponent]
  split
  · rfl
  · split
    · split <;> rfl
    · split
      · split
        · rfl
        · split <;> rfl
      · rfl
      · rfl

/-- What a reference says does not depend on the comments of the types. -/
theorem step_redoc (text : String) : step (p.redoc docs) text = (step p text).redoc docs := by
  unfold step
  have hscalars : (p.redoc docs).scalars = p.scalars := rfl
  simp only [Project.find?_redoc, hscalars]
  split
  · rfl
  · split
    · rfl
    · split
      · rfl
      · split
        · rfl
        · cases p.catalog.find? text with
          | none => rfl
          | some t => exact stepType_redoc text t

end Shape

end EndpointDocs

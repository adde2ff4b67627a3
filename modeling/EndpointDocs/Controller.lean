import EndpointDocs.Project
import EndpointDocs.Route

namespace EndpointDocs

structure Controller where
  type : TypeDecl
  methods : List MethodDecl

namespace Controller

/-- Interfaces may be controllers, and other types that are annotated so; a tag takes either out. -/
def isController (s : Settings) (t : TypeDecl) : Bool :=
  !t.doc.hasTag "ignore" &&
    (t.kind = .interface || s.controllerAnnotations.any (Annotations.has t.annotations))

/-- Visible methods of an instance that are mapped to a path are endpoints. -/
def isEndpoint (m : MethodDecl) : Bool :=
  !m.modifiers.isPrivate && !m.modifiers.isStatic && !m.doc.hasTag "ignore" &&
    (Annotations.findAny? m.annotations Route.annotationNames).isSome

def endpointMethods (c : Catalog) (t : TypeDecl) : List MethodDecl :=
  (c.allMethods t).filter isEndpoint

/-- The type as a controller, if it is one and has endpoints. -/
def ofType? (p : Project) (t : TypeDecl) : Option Controller :=
  if isController p.settings t then
    match endpointMethods p.catalog t with
    | [] => none
    | methods => some ⟨t, methods⟩
  else none

/-- All controllers of a project. Classes go before interfaces, so that the endpoints of a class
count rather than those of the interface that it implements. -/
def all (p : Project) : List Controller :=
  let found := p.catalog.types.filterMap (ofType? p)
  found.filter (·.type.kind ≠ .interface) ++ found.filter (·.type.kind = .interface)

end Controller

end EndpointDocs

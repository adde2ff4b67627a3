import EndpointDocs.Controller
import EndpointDocs.Heading
import EndpointDocs.Request
import EndpointDocs.Response

namespace EndpointDocs.Documentation

/-- All endpoints of a project and the number of controllers that they were sought in. -/
structure Summary where
  controllers : Nat
  endpoints : List Endpoint

/-- What the paths of a method have in common. -/
def common (p : Project) (t : TypeDecl) (m : MethodDecl) (method : HttpMethod) :
    Noting Endpoint := do
  let request ← Request.ofMethod p m method
  let response ← Response.ofMethod p m
  return {
    method
    category := some (Heading.category m t)
    summary := Heading.summary? m
    description := Heading.description? m
    deprecated := Heading.isDeprecated m t
    tags := (Heading.tags m).eraseDups
    parameters := request.parameters
    bodyEncoding := some request.encoding
    body := request.body
    formFields := request.formFields
    response }

/-- The endpoints of a method of the class `t`, one for each of its paths below `base`. -/
def ofMethod (p : Project) (t : TypeDecl) (base : String) (m : MethodDecl) :
    Noting (List Endpoint) :=
  match Route.ofAnnotations? m.annotations with
  | none => pure []
  | some route => do
    let e ← common p t m route.method
    return route.paths.map fun path =>
      { e with path := Route.compose base path }.corrected p.settings

def ofMethods (p : Project) (t : TypeDecl) (methods : List MethodDecl) : Noting (List Endpoint) :=
  return (← methods.mapM (ofMethod p t (Route.ofClass p.catalog t))).flatten

/-- The endpoints of a type, none if it is no controller. -/
def ofType (p : Project) (t : TypeDecl) : Noting (List Endpoint) :=
  if Controller.isController p.settings t then
    ofMethods p t (Controller.endpointMethods p.catalog t)
  else pure []

/-- Of the endpoints with one key only the first. -/
def distinct (endpoints : List Endpoint) : List Endpoint :=
  endpoints.foldl
    (fun kept e => if kept.any (·.key = e.key) then kept else kept ++ [e]) []

/-- An endpoint for each path of each method of the controllers. Of several endpoints with one key
the first one is kept. -/
def ofProject (p : Project) : Noting Summary := do
  let controllers := Controller.all p
  let found ← controllers.mapM fun c => ofMethods p c.type c.methods
  return ⟨controllers.length, distinct found.flatten⟩

end EndpointDocs.Documentation

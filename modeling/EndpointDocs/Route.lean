import EndpointDocs.Catalog.Hierarchy
import EndpointDocs.Endpoint

namespace EndpointDocs

/-- An HTTP method and the paths, relative to the class, that answer to it. -/
structure Route where
  method : HttpMethod
  paths : List String
  deriving DecidableEq

namespace Route

/-- The annotations that map a method, in the order in which they count. -/
def annotationNames : List String :=
  ["RequestMapping", "GetMapping", "PostMapping", "PutMapping", "DeleteMapping", "PatchMapping"]

def methodOf (a : Annotation) : HttpMethod :=
  match a.shortName with
  | "GetMapping" => .get
  | "PostMapping" => .post
  | "PutMapping" => .put
  | "DeleteMapping" => .delete
  | "PatchMapping" => .patch
  | _ => ((a.value? "method").bind HttpMethod.ofText?).getD .get

def pathsOf (a : Annotation) : List String :=
  (a.values "value" ++ a.values "path").filterMap Text.content?

/-- What the annotations of a method map it to; without a path it is the path of the class. -/
def ofAnnotations? (annotations : List Annotation) : Option Route :=
  (Annotations.findAny? annotations annotationNames).map fun a =>
    ⟨methodOf a, match pathsOf a with
      | [] => [""]
      | paths => paths⟩

/-- The path of a class: that of its own annotation, or else of the nearest ancestor that has one. -/
def ofClass (c : Catalog) (t : TypeDecl) : String :=
  let own? (t : TypeDecl) : Option Annotation :=
    Annotations.find? t.annotations "RequestMapping"
  let found := (own? t).or ((c.ancestors t).findSome? fun (a, _) => own? a)
  ((found.map pathsOf).getD []).head?.getD ""

/-- The path made of the segments of both, none of them empty, each behind a slash. -/
def compose (base path : String) : String :=
  "/" ++ Text.join "/" (Text.fields '/' base ++ Text.fields '/' path)

end Route

end EndpointDocs

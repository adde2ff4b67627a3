import EndpointDocs.Schema

namespace EndpointDocs

inductive HttpMethod
  | get | post | put | delete | patch | options | head
  deriving DecidableEq

namespace HttpMethod

def name : HttpMethod → String
  | .get => "GET"
  | .post => "POST"
  | .put => "PUT"
  | .delete => "DELETE"
  | .patch => "PATCH"
  | .options => "OPTIONS"
  | .head => "HEAD"

def all : List HttpMethod :=
  [.get, .post, .put, .delete, .patch, .options, .head]

/-- The method that a reference to it names, such as `get`, `RequestMethod.GET` or `Method::GET`:
what stands after the last dot or colon counts, in letters of either case. -/
def ofText? (text : String) : Option HttpMethod :=
  let last := ((text.toList.splitOnP fun c => c = '.' || c = ':').getLast?).getD []
  let name := Chars.lowercase (Chars.trim last)
  all.find? fun m => Chars.lowercase m.name.toList = name

/-- Whether a request by this method carries a body. -/
def allowsBody : HttpMethod → Bool
  | .post | .put | .patch | .delete => true
  | .get | .options | .head => false

end HttpMethod

/-- How the body of a request is written. -/
inductive BodyEncoding
  | form | formData | json | raw
  deriving DecidableEq

/-- An endpoint at one path. -/
structure Endpoint where
  method : HttpMethod := .get
  path : String := ""
  category : Option String := none
  summary : Option String := none
  description : Option String := none
  deprecated : Bool := false
  /-- No tag stands here twice. -/
  tags : List String := []
  parameters : List Schema := []
  bodyEncoding : Option BodyEncoding := none
  body : Option Schema := none
  formFields : List Schema := []
  response : Option Schema := none
  deriving Inhabited

/-- Endpoints with one key document the same requests. -/
def Endpoint.key (e : Endpoint) : String :=
  e.method.name ++ " " ++ e.path

end EndpointDocs

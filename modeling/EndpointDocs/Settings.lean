import EndpointDocs.Declaration
import EndpointDocs.Endpoint

namespace EndpointDocs

/-- Corrections of one field; what is unset or has no content leaves the field as it is. -/
structure FieldOverride where
  name : Option String := none
  description : Option String := none
  dataType : Option DataType := none
  required : Option Bool := none
  deprecated : Option Bool := none
  default : Option String := none
  sample : Option String := none
  mock : Option String := none
  dateFormat : Option String := none
  deriving DecidableEq

structure TypeOverride where
  includes : List String := []
  excludes : List String := []
  fields : OrderedMap FieldOverride := []
  deriving DecidableEq

/-- Whether the field is documented: if any fields are included it has to be one of them, and
otherwise it must not be excluded. -/
def TypeOverride.admits (o : TypeOverride) (field : String) : Bool :=
  if o.includes.isEmpty then field ∉ o.excludes else field ∈ o.includes

structure EndpointOverride where
  category : Option String := none
  summary : Option String := none
  description : Option String := none
  deprecated : Option Bool := none
  tags : List String := []
  deriving DecidableEq

/-- A mock for the properties whose name matches a pattern and, if one is given, whose type has
the label. -/
structure MockRule where
  typeLabel : Option String := none
  pattern : String := ""
  mock : String := ""
  deriving DecidableEq

/-- What a user settles about the documentation: corrections of single types, fields and endpoints,
and the lists of names by which types and annotations are recognised. -/
structure Settings where
  /-- Corrections of types, by the text of a reference or a name of the type. -/
  types : OrderedMap TypeOverride := []
  /-- Corrections of endpoints, by key or path. -/
  endpoints : OrderedMap EndpointOverride := []
  /-- Labels of further scalar types. -/
  scalars : OrderedMap String := []
  parameterDateFormat : Option String := some "yyyy-MM-dd HH:mm:ss"
  bodyDateFormat : Option String := some "yyyy-MM-dd HH:mm:ss"
  dateTypes : List String := [
    "java.util.Date", "java.sql.Date", "java.sql.Timestamp", "java.time.LocalDate",
    "java.time.LocalDateTime", "java.time.LocalTime", "java.time.ZonedDateTime",
    "java.time.OffsetDateTime", "java.time.Instant", "chrono::NaiveDate",
    "chrono::NaiveDateTime", "chrono::NaiveTime", "chrono::DateTime", "time::OffsetDateTime",
    "time::PrimitiveDateTime"]
  ignoredParameterTypes : List String := [
    "javax.servlet.http.HttpServletRequest", "javax.servlet.http.HttpServletResponse",
    "javax.servlet.http.HttpSession", "jakarta.servlet.http.HttpServletRequest",
    "jakarta.servlet.http.HttpServletResponse", "org.springframework.ui.Model",
    "org.springframework.ui.ModelMap", "org.springframework.validation.BindingResult",
    "org.springframework.web.context.request.WebRequest", "java.security.Principal",
    "java.util.Locale", "axum::extract::State", "axum::Extension", "actix_web::HttpRequest",
    "actix_web::web::Data"]
  unwrappedTypes : List String := [
    "org.springframework.http.ResponseEntity",
    "org.springframework.web.context.request.async.DeferredResult",
    "java.util.concurrent.Callable", "java.util.concurrent.CompletableFuture",
    "reactor.core.publisher.Mono", "Result", "axum::Json", "actix_web::web::Json"]
  wrapperType : Option String := none
  mockRules : List MockRule := []
  mocksEnabled : Bool := true
  controllerAnnotations : List String := ["RestController", "Controller"]
  collectionTypes : List String := ["java.util.Collection", "java.lang.Iterable", "Collection"]
  mapTypes : List String := ["java.util.Map", "Map"]
  topTypes : List String := ["java.lang.Object", "serde_json::Value"]
  accessorBaseTypes : List String := []
  requiredAnnotations : List String := ["NotNull", "NotBlank", "NotEmpty"]
  deriving DecidableEq

namespace Settings

/-- The correction for a type: by the reference as written, then by the full and by the short name
of the type that it was found to mean. -/
def typeOverride? (s : Settings) (text : String) (type : Option TypeDecl) : Option TypeOverride :=
  (s.types.get? text).or <| type.bind fun t =>
    (s.types.get? t.name).or (s.types.get? t.shortName)

/-- The correction for an endpoint: by its key, then by its path. -/
def endpointOverride? (s : Settings) (method : HttpMethod) (path : String) :
    Option EndpointOverride :=
  (s.endpoints.get? (method.name ++ " " ++ path)).or (s.endpoints.get? path)

end Settings

end EndpointDocs

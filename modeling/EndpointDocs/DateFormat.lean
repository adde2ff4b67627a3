import EndpointDocs.Project

namespace EndpointDocs

/-- How a value travels: in a JSON body or as a parameter. -/
inductive Carrier
  | body | parameter
  deriving DecidableEq

namespace DateFormat

def dateOnlyTypes : List String :=
  ["java.time.LocalDate", "java.sql.Date", "chrono::NaiveDate", "time::Date", "LocalDate",
    "NaiveDate"]

def timeOnlyTypes : List String :=
  ["java.time.LocalTime", "chrono::NaiveTime", "time::Time", "LocalTime", "NaiveTime"]

def ofCarrier (s : Settings) : Carrier → Option String
  | .body => s.bodyDateFormat
  | .parameter => s.parameterDateFormat

def isDate (p : Project) (text : String) : Bool :=
  p.catalog.matchesAny p.settings.dateTypes text

/-- The pattern that the annotation called `name` gives. -/
def annotated? (annotations : List Annotation) (name : String) : Option String :=
  (Annotations.find? annotations name).bind (·.firstValue? ["pattern", "value"])

def ofType (s : Settings) (text : String) (carrier : Carrier) : Option String :=
  let name := TypeText.rawName text
  let short := TypeText.shortName name
  if name ∈ dateOnlyTypes || short ∈ dateOnlyTypes then some "yyyy-MM-dd"
  else if name ∈ timeOnlyTypes || short ∈ timeOnlyTypes then some "HH:mm:ss"
  else ofCarrier s carrier

/-- The format of a value of the type, `none` when that is not a date type. An annotation gives it,
or else the type if it has no time or no date in it, or else the settings. -/
def find? (p : Project) (text : String) (annotations : List Annotation) (carrier : Carrier) :
    Option String :=
  if isDate p text then
    ((annotated? annotations "JsonFormat").or (annotated? annotations "DateTimeFormat")).or
      (ofType p.settings text carrier)
  else none

end DateFormat

/-- Sets the date format of a scalar that has none. -/
def Schema.stampDate (s : Schema) (p : Project) (text : String) (annotations : List Annotation)
    (carrier : Carrier) : Schema :=
  if s.dateFormat.isSome || !s.dataType.isScalar then s
  else { s with dateFormat := DateFormat.find? p text annotations carrier }

end EndpointDocs

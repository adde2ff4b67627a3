import EndpointDocs.Settings

namespace EndpointDocs.Remarks

def valuesText (values : List KnownValue) : String :=
  Text.join ", " (values.map KnownValue.text)

/-- A description followed by the known values in brackets; either may be missing. -/
def describeWithValues (description : Option String) (values : Option (List KnownValue)) :
    Option String :=
  match Text.contentOf? description, values.getD [] with
  | description, [] => description
  | none, values => some (valuesText values)
  | some description, values => some (description ++ " (" ++ valuesText values ++ ")")

/-- What an annotation says about a member, or else the first line of its comment. -/
def memberDescription? (annotations : List Annotation) (doc : DocComment) : Option String :=
  ((Annotations.find? annotations "ApiModelProperty").bind (·.value? "value")).or doc.title?

/-- What an annotation says about a parameter, or else its tag in the comment of the method. -/
def parameterDescription? (p : ParameterDecl) (doc : DocComment) : Option String :=
  ((Annotations.find? p.annotations "ApiParam").bind (·.value? "value")).or
    ((doc.param? p.name).filter (· ≠ ""))

/-- The name under which a member is written. -/
def memberName (annotations : List Annotation) (declared : String) : String :=
  ((Annotations.find? annotations "JsonProperty").bind (·.value? "value")).getD declared

def isRequired (settings : Settings) (annotations : List Annotation) : Bool :=
  settings.requiredAnnotations.any (Annotations.has annotations)

def isDeprecated (annotations : List Annotation) (doc : DocComment) : Bool :=
  Annotations.has annotations "Deprecated" || doc.hasTag "deprecated"

/-- A member is left out when it is hidden, ignored in documents, or tagged so. -/
def isIgnored (annotations : List Annotation) (doc : DocComment) : Bool :=
  let hidden := (Annotations.find? annotations "ApiModelProperty").bind (·.flag? "hidden")
  let ignored := (Annotations.find? annotations "JsonIgnore").map fun a => (a.flag? "value").getD true
  hidden.getD false || ignored.getD false || doc.hasTag "ignore"

/-- The text without the quotation marks around it. -/
def unquote (s : String) : String :=
  let isQuote (c : Char) : Bool := c = '"'
  String.ofList ((s.toList.dropWhile isQuote).reverse.dropWhile isQuote).reverse

/-- The initial value as declared, or else as tagged, without quotation marks. -/
def defaultValue? (declared : Option String) (doc : DocComment) : Option String :=
  ((Text.contentOf? declared).or (doc.tag? "default")).map unquote

/-- Lower case words joined by `_`, for a name whose words are told apart by capitals. A capital
opens a word after a small letter or an ASCII digit, which `afterSmall` tells. -/
def snakeChars (afterSmall : Bool) : List Char → List Char
  | [] => []
  | c :: cs =>
    if Chars.isUppercase c then
      (if afterSmall then ['_'] else []) ++ Chars.toLower c ++ snakeChars false cs
    else c :: snakeChars (Chars.isLowercase c || Chars.isAsciiDigit c) cs

def snakeCase (name : String) : String :=
  String.ofList (snakeChars false name.toList)

end EndpointDocs.Remarks

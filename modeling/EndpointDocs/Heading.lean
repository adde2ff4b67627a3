import EndpointDocs.Remarks

namespace EndpointDocs.Heading

def declaredCategory? (annotations : List Annotation) : Option String :=
  (Annotations.find? annotations "Api").bind (·.firstValue? ["tags", "value"])

/-- The category: annotated, or tagged, or the title of the class, or its name in small words. The
method goes before the class. -/
def category (m : MethodDecl) (t : TypeDecl) : String :=
  let said :=
    ((((declaredCategory? m.annotations).or (declaredCategory? t.annotations)).or
      (m.doc.tag? "menu")).or (t.doc.tag? "menu")).or t.doc.title?
  (Text.contentOf? said).getD (Remarks.snakeCase t.shortName)

def summary? (m : MethodDecl) : Option String :=
  let annotated := (Annotations.find? m.annotations "ApiOperation").bind (·.value? "value")
  Text.contentOf? <|
    ((annotated.or (m.doc.tag? "description")).or (m.doc.tag? "Description")).or m.doc.title?

/-- Markup signs are written by their names. -/
def escapeMarkup : Char → Option (List Char)
  | '&' => some "&amp;".toList
  | '<' => some "&lt;".toList
  | '>' => some "&gt;".toList
  | _ => none

/-- The signature of the method as a block of code. -/
def description? (m : MethodDecl) : Option String :=
  (Text.content? m.signature).map fun signature =>
    "<pre><code>" ++ String.ofList (Chars.escape escapeMarkup signature.toList) ++ "</code></pre>"

def isDeprecated (m : MethodDecl) (t : TypeDecl) : Bool :=
  Remarks.isDeprecated m.annotations m.doc || Remarks.isDeprecated t.annotations t.doc

/-- The parts of the `tags` tag. -/
def tags (m : MethodDecl) : List String :=
  ((m.doc.tag? "tags").map (Text.fields ',')).getD []

end EndpointDocs.Heading

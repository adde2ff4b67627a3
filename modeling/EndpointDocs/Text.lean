import EndpointDocs.Chars.Blank
import EndpointDocs.Chars.Case
import EndpointDocs.Chars.Cut

namespace EndpointDocs.Text

def trim (s : String) : String :=
  String.ofList (Chars.trim s.toList)

/-- The text without white space around it, unless that leaves nothing. -/
def content? (s : String) : Option String :=
  let t := trim s
  if t = "" then none else some t

/-- The content of the text, if there is one with content. -/
def contentOf? (s : Option String) : Option String :=
  s.bind content?

/-- The pieces between the separators, trimmed, those without content left out. -/
def fields (sep : Char) (s : String) : List String :=
  ((s.toList.splitOn sep).map String.ofList).filterMap content?

def lines (s : String) : List String :=
  (Chars.lines s.toList).map String.ofList

def lowercase (s : String) : String :=
  String.ofList (Chars.lowercase s.toList)

def stripSuffix? (p s : String) : Option String :=
  (p.toList.isSuffixOf? s.toList).map String.ofList

/-- The texts with `sep` between them. -/
def join (sep : String) (parts : List String) : String :=
  String.ofList (List.intercalate sep.toList (parts.map String.toList))

@[simp] theorem toList_trim (s : String) : (trim s).toList = Chars.trim s.toList := by
  simp [trim]

end EndpointDocs.Text

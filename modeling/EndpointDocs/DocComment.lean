import EndpointDocs.Text

namespace EndpointDocs

structure DocTag where
  name : String
  value : String := ""
  deriving DecidableEq

/-- What a `param` tag says about the parameter, when the tag is about it: its value's first word
is the name. -/
def DocTag.about? (t : DocTag) (name : String) : Option String :=
  let value := t.value.toList
  if value.takeWhile (! Chars.isBlank ·) = name.toList then
    some (String.ofList (Chars.trim (value.dropWhile (! Chars.isBlank ·))))
  else none

/-- Free text followed by `@name value` tags. -/
structure DocComment where
  text : String := ""
  tags : List DocTag := []
  deriving DecidableEq

namespace DocComment

/-- A line without the comment's decoration: `/**` in front, `*/` behind, then one `*`. -/
def cleanLine (line : List Char) : List Char :=
  let line := Chars.trim line
  let line := (['/', '*', '*'].isPrefixOf? line).getD line
  let line := (['*', '/'].isSuffixOf? line).getD line
  let line := Chars.trimStart line
  let line := (['*'].isPrefixOf? line).getD line
  Chars.trim line

/-- What a clean line says: it opens a tag, or it goes on with what came before. -/
inductive Line
  | opening (name value : List Char)
  | running (line : List Char)
  deriving DecidableEq

/-- A line opens a tag when a name follows its `@` at once. -/
def Line.read : List Char → Line
  | '@' :: rest =>
    match rest.takeWhile (! Chars.isBlank ·) with
    | [] => .running ('@' :: rest)
    | name => .opening name (Chars.trim (rest.dropWhile (! Chars.isBlank ·)))
  | line => .running line

/-- The lines in front of the first tag, and the tags. A tag's value goes on over the lines up to
the next tag, with one space between the parts that are not empty. -/
def gather : List Line → List (List Char) × List DocTag
  | [] => ([], [])
  | .running line :: ls =>
    let (front, tags) := gather ls
    (line :: front, tags)
  | .opening name value :: ls =>
    let (front, tags) := gather ls
    let parts := (value :: front).filter (! ·.isEmpty)
    ([], ⟨String.ofList name, String.ofList (List.intercalate [' '] parts)⟩ :: tags)

def parse (raw : String) : DocComment :=
  let (front, tags) := gather ((Chars.lines raw.toList).map (Line.read ∘ cleanLine))
  ⟨String.ofList (Chars.trim (List.intercalate ['\n'] front)), tags⟩

def isEmpty (d : DocComment) : Bool :=
  d.text = "" && d.tags.isEmpty

/-- The first line of the text that has content. -/
def title? (d : DocComment) : Option String :=
  (Text.lines d.text).findSome? Text.content?

def tagsNamed (d : DocComment) (name : String) : List DocTag :=
  d.tags.filter (·.name = name)

def hasTag (d : DocComment) (name : String) : Bool :=
  d.tags.any (·.name = name)

/-- The first value with content among the tags called `name`. -/
def tag? (d : DocComment) (name : String) : Option String :=
  (d.tagsNamed name).findSome? fun t => Text.content? t.value

/-- What the first `@param name` says. -/
def param? (d : DocComment) (name : String) : Option String :=
  (d.tagsNamed "param").findSome? (·.about? name)

/-- Takes over the text when there is none, and each tag of a name that is not there yet. -/
def mergeMissing (d other : DocComment) : DocComment :=
  let text := if d.text = "" then other.text else d.text
  other.tags.foldl
    (fun d t => if d.hasTag t.name then d else { d with tags := d.tags ++ [t] }) ⟨text, d.tags⟩

end DocComment

end EndpointDocs

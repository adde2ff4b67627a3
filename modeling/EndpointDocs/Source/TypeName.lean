import EndpointDocs.Source.Item
import EndpointDocs.Text

namespace EndpointDocs.Source

/-- Types that stand for what they hold. -/
def wrappers : List String :=
  ["Option", "Box", "Rc", "Arc", "Cow", "RefCell", "Cell"]

/-- What a path is dropped from that starts in the module itself. -/
def relativeNames : List String :=
  ["crate", "self", "super"]

/-- The text of a path, by its names and the texts of the last one's arguments. -/
def pathText (names arguments : List String) : String :=
  match names.dropWhile (· ∈ relativeNames) with
  | [] => ""
  | names =>
    let path := Text.join "::" names
    if arguments.isEmpty then path else path ++ "<" ++ Text.join ", " arguments ++ ">"

/-- The text of a type that a path gives. A wrapper has that of its first argument. -/
def typePathText (names arguments : List String) : String :=
  match arguments with
  | [] => pathText names []
  | a :: _ => if names.getLast?.any (· ∈ wrappers) then a else pathText names arguments

def arrayText (component : String) : String :=
  if component = "" then "" else component ++ "[]"

mutual

/-- The text that a type goes by. References and wrappers do not show in it, the elements of a
sequence are followed by `[]`, and a type without a name has no text. -/
def TypeRef.text : TypeRef → String
  | .path _ _ segments => typePathText (segments.map Segment.name) (lastArguments segments)
  | .reference t => t.text
  | .slice t => arrayText t.text
  | .array t => arrayText t.text
  | .tuple [] => "void"
  | .paren t => t.text
  | .someOf bounds => firstBound bounds
  | .object _ bounds => firstBound bounds
  | _ => ""

/-- The texts of the types that are arguments of the last segment. -/
def lastArguments : List Segment → List String
  | [] => []
  | [s] => s.argumentTexts
  | _ :: s :: ss => lastArguments (s :: ss)

def Segment.argumentTexts : Segment → List String
  | .mk _ arguments => arguments.texts

def Arguments.texts : Arguments → List String
  | .angles arguments => argumentTexts arguments
  | _ => []

def argumentTexts : List Argument → List String
  | [] => []
  | a :: as =>
    match a.text? with
    | some t => t :: argumentTexts as
    | none => argumentTexts as

def Argument.text? : Argument → Option String
  | .type t => some t.text
  | .other => none

/-- The text of the first trait among the bounds. -/
def firstBound : List Bound → String
  | [] => ""
  | b :: bs => (b.text?).getD (firstBound bs)

def Bound.text? : Bound → Option String
  | .path segments => some (pathText (segments.map Segment.name) (lastArguments segments))
  | _ => none

end

/-- The text of the path of a trait. -/
def segmentsText (segments : List Segment) : String :=
  pathText (segments.map Segment.name) (lastArguments segments)

end EndpointDocs.Source

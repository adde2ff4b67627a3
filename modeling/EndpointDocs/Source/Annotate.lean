import EndpointDocs.Annotation
import EndpointDocs.Chars.Case
import EndpointDocs.DocComment
import EndpointDocs.Source.Level

namespace EndpointDocs.Source

/-- Joins the words between low lines, each with a capital. -/
def capitalized (name : String) : String :=
  let word (w : String) : List Char :=
    match w.toList with
    | [] => []
    | c :: cs => Chars.toUpper c ++ cs
  String.ofList ((Text.fields '_' name).flatMap word)

namespace Value

def literalText? : Literal → Option String
  | .text s => some s
  | .char c => some (String.singleton c)
  | .integer digits _ => some digits
  | .float digits _ => some digits
  | .bool b => some (if b then "true" else "false")
  | .other => none

mutual

/-- The texts of a value. A path has its last name, and a list those of its elements. -/
def texts : Value → List String
  | .literal l => (literalText? l).toList
  | .list vs => textsOfAll vs
  | .path last => [last]
  | .reference v => v.texts
  | _ => []

def textsOfAll : List Value → List String
  | [] => []
  | v :: vs => v.texts ++ textsOfAll vs

end

/-- The key that a value is assigned to. -/
def key : Value → String
  | .path last => last
  | _ => ""

/-- The attribute that an argument is for, and its values. -/
def keyed : Value → String × List String
  | .assignment left right => (left.key, right.texts)
  | v => ("value", v.texts)

end Value

namespace Attribute

def isNamed (a : Attribute) (name : String) : Bool :=
  !a.isAbsolute && a.path = [name]

/-- Attributes that are no annotations. -/
def hiddenNames : List String :=
  ["doc", "derive", "cfg", "cfg_attr", "allow", "warn", "deny", "must_use"]

/-- The arguments between brackets, or none if they are no expressions. -/
def listedArguments (inner : List Tree) : List Value :=
  let b := Below.of inner
  match Reader.commaList (b.expression true) { tokens := inner } with
  | some (es, r) => if r.tokens.isEmpty then es.map (·.value) else []
  | none => []

/-- The annotation of an attribute. The value behind an equals sign is never assigned to a key. -/
def annotation (a : Attribute) (name : String) : Annotation :=
  let entries := match a.body with
    | .empty => []
    | .value v => [("value", v.texts)]
    | .list inner => (listedArguments inner).map Value.keyed
  entries.foldl (fun a (key, values) => values.foldl (fun a v => a.push key v) a)
    { name := capitalized name }

/-- A path in which any word may stand, if it is a single word. -/
def entryName : Reader (Option String) := do
  let isAbsolute ← Reader.hasSign "::"
  let first ← Reader.anyWord
  let others ← Reader.manyIf (Ahead.isSign "::") do
    Reader.sign "::"
    Reader.anyWord
  return if isAbsolute || !others.isEmpty then none else some first

/-- Reads an entry, and gives the annotations that it stands for. -/
def storageEntry (b : Below) : Reader (List Annotation) := do
  let name ← entryName
  if name = some "rename" then
    Reader.sign "="
    match ← Reader.ahead with
    | .literal (.text s) :: _ =>
      Reader.pass
      return [({ name := "JsonProperty" } : Annotation).push "value" s]
    | _ => Reader.fail
  else if name = some "skip" || name = some "skip_serializing" then
    return [{ name := "JsonIgnore" }]
  else
    if ← Reader.hasSign "=" then discard (b.expression true)
    else if ← Reader.sees (Ahead.isGroup .paren) then Reader.pass
    return []

/-- The annotations of all entries up to the first one that cannot be read. -/
def storageEntries (b : Below) (fuel : Nat) (r : Reading) : List Annotation :=
  match fuel with
  | 0 => []
  | fuel + 1 =>
    match storageEntry b r with
    | none => []
    | some (as, r) =>
      match Reader.sign "," r with
      | none => as
      | some (_, r) => as ++ storageEntries b fuel r

def storageAnnotations (a : Attribute) : List Annotation :=
  match a.body with
  | .list inner => storageEntries (Below.of inner) (inner.length + 1) { tokens := inner }
  | _ => []

/-- The annotations that an attribute stands for: one under its last name in capitals, `GetMapping`
for `get_mapping`, or those that tell how a record is stored. -/
def annotations (a : Attribute) : List Annotation :=
  match a.path.getLast? with
  | none => []
  | some name =>
    if name ∈ hiddenNames then []
    else if name = "serde" then a.storageAnnotations
    else [a.annotation name]

/-- A line of documentation. -/
def docLine? (a : Attribute) : Option String :=
  match a.body with
  | .value (.literal (.text s)) => if a.isNamed "doc" then some s else none
  | _ => none

end Attribute

def annotationsOf (as : List Attribute) : List Annotation :=
  as.flatMap Attribute.annotations

def docOf (as : List Attribute) : DocComment :=
  DocComment.parse (Text.join "\n" (as.filterMap Attribute.docLine?))

end EndpointDocs.Source

import EndpointDocs.OrderedMap

namespace EndpointDocs

/-- Whether a scalar is a value, where there may be nothing. -/
inductive Presence
  | value
  | nothing
  /-- Marked as nothing, but written as something. -/
  | contradiction
  deriving DecidableEq

/-- A scalar, by what it may be taken for. -/
structure Leaf where
  /-- As a text. -/
  text : Option String := none
  /-- As a truth value. -/
  bool : Option Bool := none
  /-- Where there may be nothing. -/
  presence : Presence := .value
  /-- As a list or a record without entries. -/
  isEmpty : Bool := false
  /-- As one of a choice of names. -/
  choice : Option String := text

inductive Node
  | leaf (l : Leaf)
  | list (items : List Node)
  | map (entries : List (Node × Node))

namespace Node

def text? : Node → Option String
  | .leaf l => l.text
  | _ => none

def bool? : Node → Option Bool
  | .leaf l => l.bool
  | _ => none

def choice? : Node → Option String
  | .leaf l => l.choice
  | _ => none

def presence : Node → Presence
  | .leaf l => l.presence
  | _ => .value

def items? : Node → Option (List Node)
  | .list items => some items
  | .leaf l => if l.isEmpty then some [] else none
  | .map _ => none

def entries? : Node → Option (List (Node × Node))
  | .map entries => some entries
  | .leaf l => if l.isEmpty then some [] else none
  | .list _ => none

/-- One of the values, by its name. -/
def oneOf? {α : Type} (name : α → String) (values : List α) (n : Node) : Option α :=
  n.choice?.bind fun c => values.find? (name · = c)

/-- Nothing, or a value. -/
def optional? {α : Type} (read : Node → Option α) (n : Node) : Option (Option α) :=
  match n.presence with
  | .value => (read n).map some
  | .nothing => some none
  | .contradiction => none

def listOf? {α : Type} (read : Node → Option α) (n : Node) : Option (List α) :=
  n.items?.bind (List.mapM read)

/-- A list of texts, each kept once. -/
def textSet? (n : Node) : Option (List String) :=
  (n.listOf? text?).map List.eraseDups

/-- A map, in which the last entry for a key counts. -/
def mapOf? {α : Type} (read : Node → Option α) (n : Node) : Option (OrderedMap α) :=
  (n.entries?.bind (List.mapM fun (k, v) => do return (← text? k, ← read v))).map
    OrderedMap.ofEntries

/-- The fields of a record, found by name. -/
abbrev Fields := List (String × Node)

/-- The entries for the names, none of them given twice. Every key has to be a text. -/
def namedFields? (names : List String) : List (Node × Node) → Option Fields
  | [] => some []
  | (k, v) :: es => do
    let name ← k.text?
    let rest ← namedFields? names es
    if name ∉ names then return rest
    else if rest.any (·.1 = name) then none
    else return (name, v) :: rest

/-- The fields of a record with the given names, by name or, in a list, by position. -/
def fields? (names : List String) (n : Node) : Option Fields :=
  match n with
  | .list items => if items.length ≤ names.length then some (names.zip items) else none
  | n => n.entries?.bind (namedFields? names)

namespace Fields

def required? {α : Type} (fs : Fields) (name : String) (read : Node → Option α) : Option α :=
  (fs.lookup name).bind read

/-- The value of a field, or else what it is when it is not given. -/
def getD? {α : Type} (fs : Fields) (name : String) (read : Node → Option α) (missing : α) :
    Option α :=
  match fs.lookup name with
  | none => some missing
  | some n => read n

/-- The value of a field that may be missing or nothing. -/
def optional? {α : Type} (fs : Fields) (name : String) (read : Node → Option α) :
    Option (Option α) :=
  fs.getD? name (Node.optional? read) none

end Fields

end Node

end EndpointDocs

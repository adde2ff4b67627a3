import EndpointDocs.Source.Item

namespace EndpointDocs.Source

/-- The tokens to come, and the items found inside of what has been read. -/
structure Reading where
  tokens : List Tree
  found : List Item := []

abbrev Reader := StateT Reading Option

namespace Ahead

/-- Words that are never names. -/
def keywords : List String :=
  ["_", "abstract", "as", "async", "await", "become", "box", "break", "const", "continue", "crate",
    "do", "dyn", "else", "enum", "extern", "false", "final", "fn", "for", "if", "impl", "in", "let",
    "loop", "macro", "match", "mod", "move", "mut", "override", "priv", "pub", "ref", "return",
    "Self", "self", "static", "struct", "super", "trait", "true", "try", "type", "typeof", "unsafe",
    "unsized", "use", "virtual", "where", "while", "yield"]

def isWord (w : String) : List Tree → Bool
  | .word v :: _ => v = w
  | _ => false

def isOneOf (ws : List String) : List Tree → Bool
  | .word v :: _ => v ∈ ws
  | _ => false

def isAnyWord : List Tree → Bool
  | .word _ :: _ => true
  | _ => false

def isName : List Tree → Bool
  | .word v :: _ => v ∉ keywords
  | _ => false

def isLifetime : List Tree → Bool
  | .lifetime _ :: _ => true
  | _ => false

def isGroup (d : Delimiter) : List Tree → Bool
  | .group e _ :: _ => e = d
  | _ => false

def isAnyGroup : List Tree → Bool
  | .group _ _ :: _ => true
  | _ => false

/-- Whether the signs come next, all but the last joined to what follows. -/
def areSigns : List Char → List Tree → Bool
  | [], _ => true
  | [c], .sign d _ :: _ => c = d
  | c :: cs, .sign d true :: ts => c = d && areSigns cs ts
  | _, _ => false

def isSign (s : String) (ts : List Tree) : Bool :=
  areSigns s.toList ts

/-- A number behind a minus sign. -/
def isNegative : List Tree → Bool
  | .sign '-' _ :: .literal (.integer _ _) :: _ | .sign '-' _ :: .literal (.float _ _) :: _ => true
  | _ => false

def isLiteral : List Tree → Bool
  | .literal _ :: _ => true
  | ts => isOneOf ["true", "false"] ts || isNegative ts

def isText : List Tree → Bool
  | .literal (.text _) :: _ => true
  | _ => false

/-- What opens a path. -/
def isPathWord (ts : List Tree) : Bool :=
  isName ts || isOneOf ["self", "super", "crate"] ts

end Ahead

namespace Reader

def fail {α : Type} : Reader α :=
  fun _ => none

def ahead : Reader (List Tree) :=
  return (← get).tokens

def sees (p : List Tree → Bool) : Reader Bool :=
  return p (← ahead)

/-- Whether what stands behind the next `n` trees is of the kind. -/
def seesBehind (n : Nat) (p : List Tree → Bool) : Reader Bool :=
  return p ((← ahead).drop n)

def isAtEnd : Reader Bool :=
  sees List.isEmpty

def pass (n : Nat := 1) : Reader Unit :=
  modify fun r => { r with tokens := r.tokens.drop n }

/-- Passes over the signs if they come next, and tells whether they did. -/
def hasSign (s : String) : Reader Bool := do
  if ← sees (Ahead.isSign s) then
    pass s.length
    return true
  else return false

def sign (s : String) : Reader Unit := do
  if ← hasSign s then return () else fail

def hasWord (w : String) : Reader Bool := do
  if ← sees (Ahead.isWord w) then
    pass
    return true
  else return false

def word (w : String) : Reader Unit := do
  if ← hasWord w then return () else fail

def anyWord : Reader String := do
  match ← ahead with
  | .word w :: _ =>
    pass
    return w
  | _ => fail

def name : Reader String := do
  if ← sees Ahead.isName then anyWord else fail

def lifetime : Reader Unit := do
  if ← sees Ahead.isLifetime then pass else fail

def hasLifetime : Reader Bool := do
  if ← sees Ahead.isLifetime then
    pass
    return true
  else return false

/-- Any tree between brackets. -/
def anyGroup : Reader (Delimiter × List Tree) := do
  match ← ahead with
  | .group d inner :: _ =>
    pass
    return (d, inner)
  | _ => fail

/-- Reads all that stands between brackets of a kind. -/
def group {α : Type} (d : Delimiter) (inner : Reader α) : Reader α := do
  match ← ahead with
  | .group e ts :: rest =>
    if e = d then
      let r ← get
      set { r with tokens := ts }
      let a ← inner
      if ← isAtEnd then
        modify fun r => { r with tokens := rest }
        return a
      else fail
    else fail
  | _ => fail

/-- A literal; a minus sign may stand in front of a number. -/
def literal : Reader Literal := do
  match ← ahead with
  | .literal l :: _ =>
    pass
    return l
  | .word "true" :: _ =>
    pass
    return .bool true
  | .word "false" :: _ =>
    pass
    return .bool false
  | .sign '-' _ :: .literal (.integer digits suffix) :: _ =>
    pass 2
    return .integer ("-" ++ digits) suffix
  | .sign '-' _ :: .literal (.float digits suffix) :: _ =>
    pass 2
    return .float ("-" ++ digits) suffix
  | _ => fail

/-- Reads if that succeeds, and otherwise takes nothing. -/
def attempt {α : Type} (p : Reader α) : Reader (Option α) :=
  fun r =>
    match p r with
    | some (a, r) => some (some a, r)
    | none => some (none, r)

/-- Reads again and again, up to where there is nothing more to read. -/
def repeatWithin {α : Type} (step : Reader (Option α)) : Nat → Reader (List α)
  | 0 => fail
  | fuel + 1 => do
    match ← step with
    | none => return []
    | some a => return a :: (← repeatWithin step fuel)

/-- Every step takes a token, so their number is fuel enough. -/
def many {α : Type} (step : Reader (Option α)) : Reader (List α) := do
  repeatWithin step ((← ahead).length + 1)

/-- Goes on with what has been read as long as more belongs to it. -/
def extendWithin {α : Type} (step : α → Reader (Option α)) (a : α) : Nat → Reader α
  | 0 => fail
  | fuel + 1 => do
    match ← step a with
    | none => return a
    | some a => extendWithin step a fuel

/-- Every step takes a token, so their number is fuel enough. -/
def extend {α : Type} (step : α → Reader (Option α)) (a : α) : Reader α := do
  extendWithin step a ((← ahead).length + 1)

/-- Reads while tokens of the kind come next. -/
def manyIf {α : Type} (p : List Tree → Bool) (item : Reader α) : Reader (List α) :=
  many do if ← sees p then some <$> item else return none

/-- Items up to a place that closes them, with signs between them. A sign may also stand behind the
last one. -/
def separated {α : Type} (closes : List Tree → Bool) (s : String) (item : Reader α) :
    Reader (List α) := do
  if ← sees closes then return []
  let first ← item
  let others ← many do
    if ← sees closes then return none
    sign s
    if ← sees closes then return none
    some <$> item
  return first :: others

/-- Items with signs between them, up to a place that closes them or to an item without a sign behind
it. -/
def joinedWithin {α : Type} (closes : List Tree → Bool) (s : String) (item : Reader α) :
    Nat → Reader (List α)
  | 0 => fail
  | fuel + 1 => do
    if ← sees closes then return []
    let a ← item
    if ← hasSign s then return a :: (← joinedWithin closes s item fuel) else return [a]

/-- Every item takes a token, so their number is fuel enough. -/
def joined {α : Type} (closes : List Tree → Bool) (s : String) (item : Reader α) :
    Reader (List α) := do
  joinedWithin closes s item ((← ahead).length + 1)

/-- Reads a member: a name, or a number without a suffix that fits into 32 bits. The answer is the
name. -/
def member : Reader (Option String) := do
  if ← sees Ahead.isName then some <$> anyWord
  else
    match ← ahead with
    | .literal (.integer digits "") :: _ =>
      if digits.toNat?.any (· < Nat.pow 2 32) then
        pass
        return none
      else fail
    | _ => fail

/-- Items up to the end, with commas between them. -/
def commaList {α : Type} (item : Reader α) : Reader (List α) :=
  separated List.isEmpty "," item

/-- Reads without keeping the items that are found on the way. -/
def ignoringFound {α : Type} (p : Reader α) : Reader α := do
  let kept := (← get).found
  let a ← p
  modify fun r => { r with found := kept }
  return a

/-- Reads, and keeps the items that are found on the way only if the answer is that they count. -/
def keepingFoundIf (p : Reader Bool) : Reader Unit := do
  let kept := (← get).found
  if !(← p) then modify fun r => { r with found := kept }

/-- Reads, and gives the items that are found on the way. -/
def collecting {α : Type} (p : Reader α) : Reader (α × List Item) := do
  let kept := (← get).found
  modify fun r => { r with found := [] }
  let a ← p
  let inner := (← get).found
  modify fun r => { r with found := kept }
  return (a, inner)

def find (i : Item) : Reader Unit :=
  modify fun r => { r with found := r.found ++ [i] }

end Reader

/-- How an expression ends and what it is, as far as what may follow it depends on that. -/
inductive Form
  /-- Ends in a block and can be a statement by itself. -/
  | block
  | invocation (isBraced : Bool)
  | range
  | comparison
  | other
  deriving DecidableEq

structure Expression where
  form : Form := .other
  endsInBrace : Bool := false
  value : Value := .other

/-- What binds the values that match it. -/
structure Binding where
  /-- The name of the first binding. -/
  name : Option String := none
  /-- Whether it is `..`. -/
  isRest : Bool := false
  /-- Whether it is a range without a start or an end. -/
  isOpenRange : Bool := false

/-- The readers for what stands deeper. -/
structure Below where
  /-- A type; the argument tells whether bounds may be joined by plus signs. -/
  type : Bool → Reader TypeRef
  /-- An expression; the argument tells whether it may name a record and its fields. -/
  expression : Bool → Reader Expression
  unary : Bool → Reader Expression
  /-- An expression that ends with its first block, if a block is what it begins with. -/
  early : Reader Expression
  /-- What binds values; the argument tells whether it may be a choice of several. -/
  binding : Bool → Reader Binding
  statements : Reader Unit
  item : Reader Unit

end EndpointDocs.Source

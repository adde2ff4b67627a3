import EndpointDocs.Node
import EndpointDocs.Yaml.Token

namespace EndpointDocs

/-- A scalar of YAML. One between quotation marks is a text and nothing else; a tag of the user's
own names a choice. -/
def Leaf.ofScalar (tag : Option String) (style : Yaml.Style) (text : String) : Leaf :=
  let isNull := style = .plain && Yaml.isNull text.toList
  { text := some text
    bool :=
      if style = .plain || (style = .literal && tag = some "tag:yaml.org,2002:bool") then
        Yaml.bool? text.toList
      else none
    presence :=
      if style ≠ .plain then .value
      else match tag with
        | none => if isNull then .nothing else .value
        | some "tag:yaml.org,2002:null" =>
          if isNull && text ≠ "" then .nothing else .contradiction
        | some _ => .value
    isEmpty := style = .plain && text = ""
    choice :=
      match tag.map String.toList with
      | some ('!' :: name) => if isNull then some (String.ofList name) else none
      | _ => some text }

namespace Yaml

/-- A document whose aliases have not been followed yet. -/
inductive Tree
  | leaf (l : Leaf)
  | list (items : List Tree)
  | map (entries : List (Tree × Tree))
  /-- What has been anchored under the number. -/
  | alias (number : Nat)
  | anchored (number : Nat) (t : Tree)

/-- The reading of a document: the tokens to come, what the handles of tags stand for, and the
numbers of the anchors. An anchor is numbered by how many names there are before it. -/
structure Reading where
  tokens : List Token
  handles : List (String × String) := []
  anchors : OrderedMap Nat := []

abbrev Compose := StateT Reading Option

namespace Compose

def fail {α : Type} : Compose α :=
  fun _ => none

def peek : Compose (Option Token) :=
  return (← get).tokens.head?

def pass : Compose Unit :=
  modify fun r => { r with tokens := r.tokens.drop 1 }

/-- Passes over the token if it comes next, and tells whether it did. -/
def passed (t : Token) : Compose Bool := do
  if (← peek) = some t then
    pass
    return true
  else return false

/-- Whether one of the tokens comes next. -/
def isNext (ts : List Token) : Compose Bool :=
  return (← peek).any (· ∈ ts)

def anchor? : Compose (Option String) := do
  match ← peek with
  | some (.anchor name) =>
    pass
    return some name
  | _ => return none

/-- A tag in full, with its handle replaced. -/
def tag? : Compose (Option String) := do
  match ← peek with
  | some (.tag "" suffix) =>
    pass
    return some suffix
  | some (.tag handle suffix) =>
    pass
    match (← get).handles.lookup handle with
    | some meaning => return some (meaning ++ suffix)
    | none => fail
  | _ => return none

/-- An anchor and a tag, in either order, each of which may be missing. -/
def properties : Compose (Option String × Option String) := do
  match ← anchor? with
  | some anchor => return (some anchor, ← tag?)
  | none =>
    let tag ← tag?
    return (← anchor?, tag)

/-- Numbers an anchor. -/
def define (name : String) : Compose Nat := do
  let r ← get
  let number := r.anchors.length
  set { r with anchors := r.anchors.put name number }
  return number

def emptyLeaf : Tree :=
  .leaf (Leaf.ofScalar none .plain "")

/-- Where a node stands, which decides what it may be. -/
inductive Position
  /-- In a flow collection. -/
  | flow
  /-- An item of a block list, or the whole document. -/
  | block
  /-- In a block map, where a list need not be indented. -/
  | entry
  deriving DecidableEq

/-- What may stand where a node is left out. -/
def afterKey : List Token := [.key, .value, .blockEnd]

mutual

/-- A node. Every call passes over a token or is followed by one that does, so twice the number of
tokens is fuel enough. -/
def node (p : Position) (fuel : Nat) : Compose Tree :=
  match fuel with
  | 0 => fail
  | fuel + 1 => do
    if let some (.alias name) ← peek then
      pass
      match (← get).anchors.get? name with
      | some number => return .alias number
      | none => fail
    else
      let (anchor, tag) ← properties
      match anchor with
      | some name =>
        let number ← define name
        return .anchored number (← content p true tag fuel)
      | none => content p tag.isSome tag fuel

/-- A node behind its anchor and tag, which it may consist of. -/
def content (p : Position) (hasProperties : Bool) (tag : Option String) (fuel : Nat) :
    Compose Tree :=
  match fuel with
  | 0 => fail
  | fuel + 1 => do
    match ← peek with
    | some (.scalar text style) =>
      pass
      return .leaf (Leaf.ofScalar (if tag = some "!" then none else tag) style text)
    | some .flowList =>
      pass
      .list <$> flowItems true fuel
    | some .flowMap =>
      pass
      .map <$> flowEntries true fuel
    | t =>
      if t = some .item && p = .entry then .list <$> items true fuel
      else if t = some .blockList && p ≠ .flow then
        pass
        .list <$> items false fuel
      else if t = some .blockMap && p ≠ .flow then
        pass
        .map <$> entries fuel
      else if hasProperties then return .leaf (Leaf.ofScalar tag .plain "")
      else fail

/-- The items of a block list, up to its end or, where the list is not indented, to what is not an
item. -/
def items (isFlush : Bool) (fuel : Nat) : Compose (List Tree) :=
  match fuel with
  | 0 => fail
  | fuel + 1 => do
    if ← passed .item then
      let isLeftOut ← isNext (.item :: if isFlush then afterKey else [.blockEnd])
      let t ← if isLeftOut then pure emptyLeaf else node .block fuel
      return t :: (← items isFlush fuel)
    else if isFlush then return []
    else if ← passed .blockEnd then return []
    else fail

/-- The entries of a block map up to its end. -/
def entries (fuel : Nat) : Compose (List (Tree × Tree)) :=
  match fuel with
  | 0 => fail
  | fuel + 1 => do
    if ← passed .key then
      let k ← if ← isNext afterKey then pure emptyLeaf else node .entry fuel
      let isLeftOut ← if ← passed .value then isNext afterKey else pure true
      let v ← if isLeftOut then pure emptyLeaf else node .entry fuel
      return (k, v) :: (← entries fuel)
    else if ← passed .blockEnd then return []
    else fail

/-- The items of a flow list up to its end. An item may be a single entry of a map. -/
def flowItems (isFirst : Bool) (fuel : Nat) : Compose (List Tree) :=
  match fuel with
  | 0 => fail
  | fuel + 1 => do
    if ← passed .flowListEnd then return []
    unless isFirst do
      unless ← passed .comma do fail
    if ← passed .key then
      let t ← pair fuel
      return t :: (← flowItems false fuel)
    else if ← passed .flowListEnd then return []
    else
      let t ← node .flow fuel
      return t :: (← flowItems false fuel)

/-- An entry in a flow list. Where its key is left out, the token in place of the key is passed
over. -/
def pair (fuel : Nat) : Compose Tree :=
  match fuel with
  | 0 => fail
  | fuel + 1 => do
    let k ←
      if ← isNext [.value, .comma, .flowListEnd] then
        pass
        pure emptyLeaf
      else node .flow fuel
    let isLeftOut ← if ← passed .value then isNext [.comma, .flowListEnd] else pure true
    let v ← if isLeftOut then pure emptyLeaf else node .flow fuel
    return .map [(k, v)]

/-- The entries of a flow map up to its end. A key may stand without a value. -/
def flowEntries (isFirst : Bool) (fuel : Nat) : Compose (List (Tree × Tree)) :=
  match fuel with
  | 0 => fail
  | fuel + 1 => do
    if ← passed .flowMapEnd then return []
    unless isFirst do
      unless ← passed .comma do fail
    if ← passed .key then
      let isKeyLeftOut ← isNext [.value, .comma, .flowMapEnd]
      let k ← if isKeyLeftOut then pure emptyLeaf else node .flow fuel
      let isLeftOut ← if ← passed .value then isNext [.comma, .flowMapEnd] else pure true
      let v ← if isLeftOut then pure emptyLeaf else node .flow fuel
      return (k, v) :: (← flowEntries false fuel)
    else if ← passed .flowMapEnd then return []
    else
      let k ← node .flow fuel
      return (k, emptyLeaf) :: (← flowEntries false fuel)

end

/-- The directives in front of a document. Neither the version nor a handle is given twice, and the
version is 1.1 or 1.2. `none` if there are no directives. -/
def directives (hasVersion : Bool) (handles : List (String × String)) :
    List Token → Option (List (String × String) × List Token)
  | .version major minor :: ts =>
    if hasVersion || major ≠ 1 || (minor ≠ 1 && minor ≠ 2) then none
    else directives true handles ts
  | .abbreviation handle meaning :: ts =>
    if handles.any (·.1 = handle) then none
    else directives hasVersion (handles ++ [(handle, meaning)]) ts
  | ts => some (handles, ts)

/-- What handles stand for unless a directive says otherwise. -/
def usualHandles : List (String × String) :=
  [("!", "!"), ("!!", "tag:yaml.org,2002:")]

def hasDirective : List Token → Bool
  | .version _ _ :: _ | .abbreviation _ _ :: _ => true
  | _ => false

/-- The only document of the tokens, which is an empty scalar if there are none. -/
def document? (ts : List Token) : Option Tree := do
  if ts.isEmpty then return emptyLeaf
  let (handles, rest) ← directives false [] ts
  let r : Reading := { tokens := rest, handles := handles ++ usualHandles }
  let fuel := 2 * ts.length + 2
  let (t, r) ←
    match rest with
    | .documentStart :: rest =>
      let r := { r with tokens := rest }
      if rest.isEmpty || rest.head? = some .documentStart || rest.head? = some .documentEnd ||
          hasDirective rest then
        some (emptyLeaf, r)
      else node .block fuel r
    | _ => if hasDirective ts then none else node .block fuel r
  if r.tokens.all (· = .documentEnd) then return t else none

end Compose

end Yaml

end EndpointDocs

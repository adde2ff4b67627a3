import EndpointDocs.Source.Content

namespace EndpointDocs.Source.Reader

/-- Visibility and attributes in front of an item. -/
structure Marks where
  attributes : List Attribute
  visibility : Visibility

/-- What is taken from other modules. A brace may hold paths from the root where the whole may. -/
def useTree (allowsRoot : Bool) : Nat → Reader Unit
  | 0 => fail
  | depth + 1 => do
    let opensName (ts : List Tree) : Bool := Ahead.isPathWord ts || Ahead.isWord "try" ts
    if ← sees opensName then
      pass
      if ← hasSign "::" then useTree false depth
      else if ← hasWord "as" then
        if !(← hasWord "_") then discard name
    else if ← hasSign "*" then return ()
    else
      discard <| group .brace <| commaList do
        let isRoot ← if allowsRoot then hasSign "::" else pure false
        useTree (allowsRoot && !isRoot) depth

def useItem : Reader Unit := do
  word "use"
  let isRoot ← hasSign "::"
  useTree (!isRoot) (Tree.sizes (← ahead) + 1)
  sign ";"

def externCrate : Reader Unit := do
  word "extern"
  word "crate"
  if !(← hasWord "self") then discard name
  if ← hasWord "as" then
    if !(← hasWord "_") then discard name
  sign ";"

def foreignItem (b : Below) : Reader Unit := do
  discard (hasWord "unsafe")
  if ← hasAbi then
    group .brace do
      discard (innerAttributes b)
      discard <| manyIf (!·.isEmpty) (foreignMember b)
  else fail

/-- A function. What its body holds counts, but not if it has none. -/
def functionItem (b : Below) : Reader Bool := do
  discard (signature b false)
  if ← hasSign ";" then return false
  else
    discard (body b)
    return true

/-- A static variable, which counts if it has a type and a value. -/
def staticItem (b : Below) : Reader Bool := do
  word "static"
  discard (hasWord "mut")
  discard name
  let hasType ← hasSign ":"
  if hasType then discard (b.type true)
  let hasValue ← hasSign "="
  if hasValue then discard (b.expression true)
  if !hasType && !hasValue then fail
  sign ";"
  return hasType && hasValue

def moduleItem (b : Below) : Reader Unit := do
  discard (hasWord "unsafe")
  word "mod"
  let n ← if ← sees (Ahead.isWord "try") then anyWord else name
  if !(← hasSign ";") then
    let (_, items) ← collecting <| group .brace do
      discard (innerAttributes b)
      manyIf (!·.isEmpty) b.item
    find (.module n items)

def recordItem (b : Below) (attributes : List Attribute) : Reader Unit := do
  word "struct"
  let s ← ignoringFound do
    let n ← name
    let parameters ← generics b
    let fields ← recordContent b
    return { attributes, name := n, parameters, fields : StructItem }
  find (.record s)

def enumItem (b : Below) (attributes : List Attribute) : Reader Unit := do
  word "enum"
  let e ← ignoringFound do
    let n ← name
    discard (generics b)
    discard (hasConditions b)
    let variants ← group .brace (commaList (variant b))
    return { attributes, name := n, variants : EnumItem }
  find (.enumeration e)

def unionItem (b : Below) : Reader Unit := do
  word "union"
  discard name
  discard (generics b)
  discard (hasConditions b)
  discard (fields b)

/-- Other traits under a name of their own. -/
def aliasContent (b : Below) : Reader Unit := do
  let closes (ts : List Tree) : Bool := Ahead.isWord "where" ts || Ahead.isSign ";" ts
  discard <| separated closes "+" (bound b false false)
  discard (hasConditions b)
  sign ";"

/-- A trait. A name for other traits is none. -/
def traitItem (b : Below) (attributes : List Attribute) : Reader Unit := do
  let isMarked ← sees fun ts => !Ahead.isWord "trait" ts
  discard (hasWord "unsafe")
  discard (hasWord "auto")
  word "trait"
  let kept := (← get).found
  let n ← name
  let parameters ← generics b
  if !isMarked && (← hasSign "=") then aliasContent b
  else
    let supertraits ← declaredBounds b fun ts =>
      Ahead.isWord "where" ts || Ahead.isGroup .brace ts
    discard (hasConditions b)
    let (inner, functions) ← members b traitMember
    modify fun r => { r with found := kept }
    let attributes := attributes ++ inner
    find (.interface { attributes, name := n, parameters, supertraits, functions })

/-- Whether parameters come next and not a type that opens a path. -/
def opensGenerics (ts : List Tree) : Bool :=
  let next := ts.drop 1
  let behind := ts.drop 2
  Ahead.isSign "<" ts &&
    (Ahead.isSign ">" next || Ahead.isSign "#" next || Ahead.isWord "const" next ||
      ((Ahead.isLifetime next || Ahead.isName next) &&
        (Ahead.isSign ">" behind || Ahead.isSign "," behind || Ahead.isSign "=" behind ||
          (Ahead.isSign ":" behind && !Ahead.isSign "::" behind))))

/-- The type that something is implemented for, behind the trait that is implemented. It is none if
it is nothing that can be. -/
def implHead (b : Below) : Reader (Option (Option (List Segment) × TypeRef)) := do
  let isNegative ← sees fun ts => Ahead.isSign "!" ts && !Ahead.isGroup .brace (ts.drop 1)
  if isNegative then sign "!"
  let first ← b.type true
  if ← hasWord "for" then
    let self ← b.type true
    match first with
    | .path false _ segments => return some (some segments, self)
    | _ => return none
  else return some (none, if isNegative then .other else first)

def implItem (b : Below) (visibility : Visibility) : Reader Unit := do
  let i ← ignoringFound do
    discard (hasWord "default")
    discard (hasWord "unsafe")
    word "impl"
    if ← sees opensGenerics then discard (generics b)
    let isConst ← sees fun ts =>
      Ahead.isWord "const" ts || (Ahead.isSign "?" ts && Ahead.isWord "const" (ts.drop 1))
    if isConst then
      discard (hasSign "?")
      word "const"
    let head ← implHead b
    discard (hasConditions b)
    let (_, functions) ← members b implMember
    if visibility = .inherited && !isConst then
      return head.map fun (traitPath, type) => { traitPath, type, functions : ImplItem }
    else return none
  if let some i := i then find (.implementation i)

/-- A macro that is declared by name. -/
def macroItem : Reader Unit := do
  word "macro"
  discard name
  if ← sees (Ahead.isGroup .paren) then pass
  if ← sees (Ahead.isGroup .brace) then pass else fail

def opensTrait (ts : List Tree) : Bool :=
  Ahead.isWord "trait" ts || (Ahead.isWord "auto" ts && Ahead.isWord "trait" (ts.drop 1))

/-- Reads an item behind its attributes and its visibility. -/
def itemContent (b : Below) (m : Marks) : Reader Unit := do
  let isInherited := m.visibility = .inherited
  let ts ← ahead
  let next := ts.drop 1
  let isMarked (p : List Tree → Bool) : Bool := p ts || (Ahead.isWord "unsafe" ts && p next)
  if Ahead.opensSignature false ts then keepingFoundIf (functionItem b)
  else if Ahead.isWord "extern" ts && Ahead.isWord "crate" next then externCrate
  else if isMarked (Ahead.isWord "extern") then if isInherited then foreignItem b else fail
  else if Ahead.isWord "use" ts then useItem
  else if Ahead.isWord "static" ts then keepingFoundIf (staticItem b)
  else if Ahead.isWord "const" ts then keepingFoundIf (constantName b)
  else if isMarked opensTrait then traitItem b m.attributes
  else if isMarked (Ahead.isWord "impl") then implItem b m.visibility
  else if Ahead.isWord "default" ts && !Ahead.isSign "!" next then implItem b m.visibility
  else if isMarked (Ahead.isWord "mod") then moduleItem b
  else if Ahead.isWord "type" ts then keepingFoundIf (typeName b .before)
  else if Ahead.isWord "struct" ts then recordItem b m.attributes
  else if Ahead.isWord "enum" ts then enumItem b m.attributes
  else if Ahead.isWord "union" ts && Ahead.isName next then unionItem b
  else if Ahead.isWord "macro" ts then macroItem
  else if isInherited && opensInvocation ts then itemInvocation true
  else fail

def item (b : Below) : Reader Unit := do
  let attributes ← attributes b
  let visibility ← visibility
  itemContent b { attributes, visibility }

end EndpointDocs.Source.Reader

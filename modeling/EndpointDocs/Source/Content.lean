import EndpointDocs.Source.Signature

namespace EndpointDocs.Source.Reader

/-- A field with a name. One without may have the fields of a record for its type. -/
def fieldWith (b : Below) (inner : Reader (List FieldItem)) : Reader FieldItem := do
  let attributes ← attributes b
  let isPublic := (← visibility) = .everywhere
  let isUnnamed ← sees (Ahead.isWord "_")
  let name ← if isUnnamed then anyWord else name
  sign ":"
  let opensRecord (ts : List Tree) : Bool :=
    Ahead.isWord "struct" ts || (Ahead.isWord "union" ts && Ahead.isGroup .brace (ts.drop 1))
  let type ←
    if isUnnamed && (← sees opensRecord) then
      pass
      discard inner
      pure TypeRef.other
    else b.type true
  return { attributes, isPublic, name, type }

def fieldsWithin (b : Below) : Nat → Reader (List FieldItem)
  | 0 => fail
  | depth + 1 => group .brace (commaList (fieldWith b (fieldsWithin b depth)))

/-- Fields with names. A record inside of another one stands behind at least one token, so their
number is depth enough. -/
def fields (b : Below) : Reader (List FieldItem) := do
  fieldsWithin b (Tree.sizes (← ahead) + 1)

/-- Fields without names. -/
def unnamedFields (b : Below) : Reader Unit :=
  discard <| group .paren <| commaList do
    discard (attributes b)
    discard visibility
    b.type true

def variant (b : Below) : Reader VariantItem := do
  let attributes ← attributes b
  discard visibility
  let n ← name
  if ← sees (Ahead.isGroup .brace) then discard (fields b)
  else if ← sees (Ahead.isGroup .paren) then unnamedFields b
  if ← hasSign "=" then discard (b.expression true)
  return { attributes, name := n }

/-- The fields of a record up to its end. Only those with names count. -/
def recordContent (b : Below) : Reader (List FieldItem) := do
  let hasConditionsFirst ← hasConditions b
  if ← sees (Ahead.isGroup .brace) then fields b
  else
    if !hasConditionsFirst && (← sees (Ahead.isGroup .paren)) then
      unnamedFields b
      discard (hasConditions b)
    sign ";"
    return []

/-- Where the conditions of a declared type may stand. -/
inductive ConditionPlace
  | before
  | behind
  | either
  deriving DecidableEq

/-- The bounds behind a colon, up to a place that closes them. -/
def declaredBounds (b : Below) (closes : List Tree → Bool) : Reader (List Bound) := do
  if ← hasSign ":" then separated closes "+" (bound b false true) else return []

/-- A name for a type. It counts if it has a type and no bounds. -/
def typeName (b : Below) (place : ConditionPlace) : Reader Bool := do
  word "type"
  discard name
  discard (generics b)
  let hasBounds ← sees (Ahead.isSign ":")
  discard <| declaredBounds b fun ts =>
    Ahead.isWord "where" ts || Ahead.isSign "=" ts || Ahead.isSign ";" ts
  let hasConditionsFirst ← if place = .behind then pure false else hasConditions b
  let hasType ← hasSign "="
  if hasType then discard (b.type true)
  if place ≠ .before && !hasConditionsFirst then discard (hasConditions b)
  sign ";"
  return hasType && !hasBounds

/-- A constant. It counts if it has a value and depends on no parameters. -/
def constantName (b : Below) : Reader Bool := do
  word "const"
  if !(← hasWord "_") then discard name
  let hasParameters ← sees (Ahead.isSign "<")
  discard (generics b)
  sign ":"
  discard (b.type true)
  let hasValue ← hasSign "="
  if hasValue then discard (b.expression true)
  let isConditional ← hasConditions b
  sign ";"
  return hasValue && !hasParameters && !isConditional

/-- An invocation in the place of an item. One without braces ends with a semicolon. -/
def itemInvocation (allowsName : Bool) : Reader Unit := do
  discard plainPath
  sign "!"
  if allowsName then
    if ← sees fun ts => Ahead.isName ts || Ahead.isWord "try" ts then pass
  let (d, _) ← anyGroup
  if d ≠ .brace then sign ";"

def opensInvocation (ts : List Tree) : Bool :=
  Ahead.isPathWord ts || Ahead.isSign "::" ts

/-- A member of a trait, if it is a function. -/
def traitMember (b : Below) : Reader (Option FunctionItem) := do
  let attributes ← attributes b
  let isInherited := (← visibility) = .inherited
  let isDefault ← hasWord "default"
  let isPlain := isInherited && !isDefault
  if ← sees (Ahead.opensSignature false) then
    let f ← signature b false
    let inner ← if ← hasSign ";" then pure [] else body b
    return if isPlain then some { f with attributes := attributes ++ inner } else none
  else
    if ← sees (Ahead.isWord "const") then discard (constantName b)
    else if ← sees (Ahead.isWord "type") then discard (typeName b .behind)
    else if isPlain && (← sees opensInvocation) then itemInvocation false
    else fail
    return none

/-- A member of an implementation, if it is a function with a body. -/
def implMember (b : Below) : Reader (Option FunctionItem) := do
  let attributes ← attributes b
  let visibility ← visibility
  let opensDefault (ts : List Tree) : Bool :=
    Ahead.isWord "default" ts && !Ahead.isSign "!" (ts.drop 1)
  let isDefault ← if ← sees opensDefault then hasWord "default" else pure false
  if ← sees (Ahead.opensSignature false) then
    let f ← signature b false
    if ← hasSign ";" then return none
    else
      let inner ← body b
      let isPublic := visibility = .everywhere
      return some { f with attributes := attributes ++ inner, isPublic }
  else
    if ← sees (Ahead.isWord "const") then discard (constantName b)
    else if ← sees (Ahead.isWord "type") then discard (typeName b .behind)
    else if visibility = .inherited && !isDefault && (← sees opensInvocation) then
      itemInvocation false
    else fail
    return none

/-- The functions among members that stand between braces, and the attributes in front of them. -/
def members (b : Below) (member : Below → Reader (Option FunctionItem)) :
    Reader (List Attribute × List FunctionItem) :=
  group .brace do
    let inner ← innerAttributes b
    let ms ← manyIf (!·.isEmpty) (member b)
    return (inner, ms.filterMap id)

/-- A static variable that is declared elsewhere. It counts if it has no value and is not marked. -/
def foreignStatic (b : Below) : Reader Bool := do
  let isUnsafe ← hasWord "unsafe"
  let isSafe ← if isUnsafe then pure false else hasWord "safe"
  word "static"
  discard (hasWord "mut")
  discard name
  sign ":"
  discard (b.type true)
  let hasValue ← hasSign "="
  if hasValue then discard (b.expression true)
  sign ";"
  return !(isUnsafe || isSafe || hasValue)

/-- A function that is declared elsewhere. It counts if it has no body and is not marked. -/
def foreignFunction (b : Below) : Reader Bool := do
  let isMarked ← sees fun ts =>
    Ahead.isWord "safe" (Ahead.dropWord "async" (Ahead.dropWord "const" ts))
  discard (signature b true)
  if ← sees (Ahead.isGroup .brace) then
    discard (body b)
    return false
  else
    sign ";"
    return !isMarked

def foreignMember (b : Below) : Reader Unit := do
  discard (attributes b)
  let isInherited := (← visibility) = .inherited
  let opensStatic (ts : List Tree) : Bool :=
    Ahead.isWord "static" ts ||
      (Ahead.isOneOf ["unsafe", "safe"] ts && Ahead.isWord "static" (ts.drop 1))
  if ← sees (Ahead.opensSignature true) then keepingFoundIf (foreignFunction b)
  else if ← sees opensStatic then keepingFoundIf (foreignStatic b)
  else if ← sees (Ahead.isWord "type") then discard (ignoringFound (typeName b .either))
  else if isInherited && (← sees opensInvocation) then itemInvocation false
  else fail

end EndpointDocs.Source.Reader

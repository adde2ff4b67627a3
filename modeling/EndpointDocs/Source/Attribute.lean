import EndpointDocs.Source.Reading

namespace EndpointDocs.Source.Reader

/-- A path of words alone, and whether `::` opens it. -/
def plainPath : Reader (Bool × List String) := do
  let isAbsolute ← hasSign "::"
  let isPart (ts : List Tree) : Bool := Ahead.isPathWord ts || Ahead.isWord "Self" ts
  if !(← sees isPart) then fail
  let first ← anyWord
  let others ← manyIf (Ahead.isSign "::") do
    sign "::"
    if ← sees isPart then anyWord else fail
  return (isAbsolute, first :: others)

/-- The value behind an equals sign: a single literal, or any other expression but one that has
attributes of its own. -/
def attributeValue (b : Below) : Reader Value := do
  let single ← attempt do
    let l ← literal
    if ← isAtEnd then return l else fail
  match single with
  | some l => return .literal l
  | none =>
    let opensAttribute (ts : List Tree) : Bool :=
      Ahead.isSign "#" ts && Ahead.isGroup .bracket (ts.drop 1)
    if ← sees opensAttribute then fail
    return (← b.expression true).value

/-- What stands between the brackets of an attribute. -/
def attributeContent (b : Below) : Reader Attribute := do
  let (isAbsolute, path) ← if ← hasWord "unsafe" then pure (false, ["unsafe"]) else plainPath
  let body ←
    if ← sees Ahead.isAnyGroup then
      let (_, inner) ← anyGroup
      pure (.list inner)
    else if ← hasSign "=" then .value <$> attributeValue b
    else pure .empty
  return { path, isAbsolute, body }

/-- The attributes in front of what they are about. -/
def attributes (b : Below) : Reader (List Attribute) :=
  manyIf (Ahead.isSign "#") do
    sign "#"
    group .bracket (attributeContent b)

/-- The attributes inside of what they are about. -/
def innerAttributes (b : Below) : Reader (List Attribute) :=
  manyIf (fun ts => Ahead.isSign "#" ts && Ahead.isSign "!" (ts.drop 1)) do
    sign "#"
    sign "!"
    group .bracket (attributeContent b)

/-- Statements between braces. -/
def block (b : Below) : Reader Unit :=
  group .brace b.statements

/-- Statements between braces, with attributes in front of them. -/
def body (b : Below) : Reader (List Attribute) :=
  group .brace do
    let inner ← innerAttributes b
    b.statements
    return inner

end EndpointDocs.Source.Reader

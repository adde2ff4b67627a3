import EndpointDocs.Source.TypeRef

namespace EndpointDocs.Source.Reader

/-- The signs of a range, and whether its end is part of it. Three points are an old way to write
that it is. -/
def rangeSign (allowsOld : Bool) : Reader Bool := do
  if ← hasSign "..=" then return true
  else if ← sees (Ahead.isSign "...") then
    if allowsOld then sign "..." else fail
    return true
  else
    sign ".."
    return false

/-- Statements between braces whose value is known in advance. -/
def constantBlock (b : Below) : Reader Unit := do
  word "const"
  discard (body b)

/-- One end of a range of values, if there is one. -/
def hasRangeEnd (b : Below) : Reader Bool := do
  let isNone (ts : List Tree) : Bool :=
    ts.isEmpty || Ahead.isSign "|" ts || Ahead.isSign "=" ts ||
      (Ahead.isSign ":" ts && !Ahead.isSign "::" ts) || Ahead.isSign "," ts ||
      Ahead.isSign ";" ts || Ahead.isWord "if" ts
  if ← sees isNone then return false
  else
    if ← sees Ahead.isLiteral then discard literal
    else if ← sees opensPath then discard (qualifiedPath b true)
    else constantBlock b
    return true

/-- The rest of a range that has a start. -/
def rangeFromStart (b : Below) : Reader Binding := do
  let isClosed ← rangeSign true
  let hasEnd ← hasRangeEnd b
  if isClosed && !hasEnd then fail else return { isOpenRange := !hasEnd }

/-- A range without a start, or the mark for all other values. -/
def rangeWithoutStart (b : Below) : Reader Binding := do
  let isClosed ← rangeSign false
  if ← hasRangeEnd b then return { isOpenRange := true }
  else if isClosed then fail
  else return { isRest := true }

def literalBinding (b : Below) : Reader Binding := do
  if ← sees Ahead.isLiteral then discard literal else constantBlock b
  if ← sees (Ahead.isSign "..") then rangeFromStart b else return {}

/-- A name, which may stand for the values of a further pattern. -/
def nameBinding (b : Below) : Reader Binding := do
  discard (hasWord "ref")
  discard (hasWord "mut")
  let n ← if ← sees (Ahead.isWord "self") then anyWord else name
  if ← hasSign "@" then discard (b.binding false)
  return { name := some n }

/-- A field, and the first name that it binds. -/
def fieldBinding (b : Below) : Reader (Option String) := do
  let isBoxed ← hasWord "box"
  let isRef ← hasWord "ref"
  let isMut ← hasWord "mut"
  if isBoxed || isRef || isMut then
    let n ← name
    return if isBoxed then none else some n
  else
    match ← member with
    | some n =>
      if ← hasSign ":" then return (← b.binding true).name else return some n
    | none =>
      sign ":"
      return (← b.binding true).name

/-- The fields of a record, of which the first name counts. A mark for all others ends them. -/
def fieldBindings (b : Below) : Reader Binding :=
  group .brace do
    let names ← many do
      if ← isAtEnd then return none
      discard (attributes b)
      if ← sees (Ahead.isSign "..") then return none
      let n ← fieldBinding b
      if !(← isAtEnd) then sign ","
      return some n
    discard (hasSign "..")
    return { name := names.findSome? id }

/-- The first name that is bound by one of several. -/
def firstName (bs : List Binding) : Option String :=
  bs.findSome? (·.name)

def elementBindings (b : Below) (d : Delimiter) : Reader (List Binding) :=
  group d (commaList (b.binding true))

def isMacroSign (ts : List Tree) : Bool :=
  Ahead.isSign "!" ts && !Ahead.isSign "!=" ts

/-- What begins with a path: a value, the fields of a record, an invocation or a range. -/
def pathBinding (b : Below) : Reader Binding := do
  let (isQualified, _, segments) ← qualifiedPath b true
  if !isQualified && (← sees isMacroSign) && segments.all (·.arguments.isNone) then
    sign "!"
    discard anyGroup
    return {}
  else if ← sees (Ahead.isGroup .brace) then fieldBindings b
  else if ← sees (Ahead.isGroup .paren) then
    return { name := firstName (← elementBindings b .paren) }
  else if ← sees (Ahead.isSign "..") then rangeFromStart b
  else return {}

/-- One element alone between parentheses is only grouped, and its name does not count. -/
def parenBinding (b : Below) : Reader Binding :=
  group .paren do
    if ← isAtEnd then return {}
    else
      let first ← b.binding true
      if ← isAtEnd then return {}
      else
        sign ","
        return { name := firstName (first :: (← commaList (b.binding true))) }

def sliceBinding (b : Below) : Reader Binding := do
  let elements ← elementBindings b .bracket
  if elements.any (·.isOpenRange) then fail else return {}

/-- Whether the tokens begin with a path that is no single name. -/
def opensPathBinding (ts : List Tree) : Bool :=
  let next := ts.drop 1
  (Ahead.isName ts && (Ahead.isSign "::" next || Ahead.isSign "!" next || Ahead.isGroup .brace next
    || Ahead.isGroup .paren next || Ahead.isSign ".." next)) ||
  (Ahead.isWord "self" ts && Ahead.isSign "::" next) ||
  Ahead.isSign "::" ts || Ahead.isSign "<" ts || Ahead.isOneOf ["Self", "super", "crate"] ts

/-- A pattern that is no choice. -/
def singleBinding (b : Below) : Reader Binding := do
  if ← sees opensPathBinding then pathBinding b
  else if ← hasWord "_" then return {}
  else if ← hasWord "box" then
    discard (b.binding false)
    return {}
  else if ← sees (fun ts => Ahead.isLiteral ts || Ahead.isWord "const" ts) then literalBinding b
  else if ← sees (fun ts => Ahead.isOneOf ["ref", "mut", "self"] ts || Ahead.isName ts) then
    nameBinding b
  else if ← hasSign "&" then
    discard (hasWord "mut")
    return { name := (← b.binding false).name }
  else if ← sees (Ahead.isGroup .paren) then parenBinding b
  else if ← sees (Ahead.isGroup .bracket) then sliceBinding b
  else if ← sees (Ahead.isSign "..") then rangeWithoutStart b
  else fail

/-- Whether another alternative follows. -/
def isAlternative (ts : List Tree) : Bool :=
  Ahead.isSign "|" ts && !Ahead.isSign "||" ts && !Ahead.isSign "|=" ts

/-- A choice binds no single name. -/
def binding (b : Below) (allowsChoice : Bool) : Reader Binding := do
  if allowsChoice then
    let isMarked ← hasSign "|"
    let first ← singleBinding b
    let others ← manyIf isAlternative do
      sign "|"
      singleBinding b
    return if isMarked || !others.isEmpty then {} else first
  else singleBinding b

end EndpointDocs.Source.Reader

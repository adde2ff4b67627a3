import EndpointDocs.Source.Attribute

namespace EndpointDocs.Source.Reader

def returnType (b : Below) (allowsPlus : Bool) : Reader (Option TypeRef) := do
  if ← hasSign "->" then some <$> b.type allowsPlus else return none

/-- A constant where a type might stand as well. -/
def constant (b : Below) : Reader Unit := do
  if ← sees Ahead.isLiteral then discard literal
  else if ← sees Ahead.isName then discard name
  else discard (body b)

def opensConstant (ts : List Tree) : Bool :=
  Ahead.isLiteral ts || Ahead.isGroup .brace ts

/-- Lifetimes that are bound in front of what they occur in. -/
def binder (b : Below) : Reader Bool := do
  if ← hasWord "for" then
    sign "<"
    discard <| separated (Ahead.isSign ">") "," do
      discard (attributes b)
      lifetime
    sign ">"
    return true
  else return false

/-- The types of parameters between parentheses, and the type behind an arrow. -/
def parenArguments (b : Below) : Reader (Option TypeRef) := do
  discard <| group .paren (commaList (b.type true))
  returnType b false

/-- Whether parentheses for arguments come next, which `::` may introduce. -/
def opensParens (ts : List Tree) : Bool :=
  Ahead.isGroup .paren ts || (Ahead.isSign "::" ts && Ahead.isGroup .paren (ts.drop 2))

/-- The type of a name that is given a value or bounds: one word with or without arguments. -/
def isAssociated : TypeRef → Bool
  | .path false false [s] =>
    match s.arguments with
    | .parens => false
    | _ => true
  | _ => false

/-- The segments with parentheses for arguments behind the last name. -/
def withParens : List Segment → List Segment
  | [] => []
  | [s] => [.mk s.name .parens]
  | s :: ss => s :: withParens ss

def lastIsBare (ss : List Segment) : Bool :=
  ss.getLast?.any (·.arguments.isNone)

/-- Reads an argument, with a reader for the bounds that a named one may have. -/
def argumentWith (b : Below) (bound : Reader Bound) : Reader Argument := do
  if (← sees Ahead.isLifetime) && !(← seesBehind 1 (Ahead.isSign "+")) then
    lifetime
    return .other
  else if ← sees opensConstant then
    constant b
    return .other
  else
    let t ← b.type true
    if !isAssociated t then return .type t
    else if ← hasSign "=" then
      if ← sees opensConstant then constant b else discard (b.type true)
      return .other
    else if ← hasSign ":" then
      discard <| joined (fun ts => Ahead.isSign "," ts || Ahead.isSign ">" ts) "+" bound
      return .other
    else return .type t

def segmentWith (b : Below) (bound : Reader Bound) (inExpression : Bool) : Reader Segment := do
  if ← sees (Ahead.isOneOf ["super", "self", "crate", "try"]) then return .mk (← anyWord) .none
  else
    let n ← if ← sees (Ahead.isWord "Self") then anyWord else name
    let opens (ts : List Tree) : Bool :=
      (!inExpression && Ahead.isSign "<" ts && !Ahead.isSign "<=" ts) ||
        (Ahead.isSign "::" ts && Ahead.isSign "<" (ts.drop 2))
    if ← sees opens then
      discard (hasSign "::")
      sign "<"
      let arguments ← separated (Ahead.isSign ">") "," (argumentWith b bound)
      sign ">"
      return .mk n (.angles arguments)
    else return .mk n .none

/-- Segments that go on with a path. -/
def furtherSegments (b : Below) (bound : Reader Bound) (inExpression : Bool) :
    Reader (List Segment) :=
  manyIf (fun ts => Ahead.isSign "::" ts && !Ahead.isGroup .paren (ts.drop 2)) do
    sign "::"
    segmentWith b bound inExpression

def pathWith (b : Below) (bound : Reader Bound) (inExpression : Bool) :
    Reader (Bool × List Segment) := do
  let isAbsolute ← hasSign "::"
  let first ← segmentWith b bound inExpression
  return (isAbsolute, first :: (← furtherSegments b bound inExpression))

/-- The parameters that a type may capture. -/
def captures : Reader Unit := do
  word "use"
  sign "<"
  discard <| separated (Ahead.isSign ">") "," do
    if !(← hasLifetime) then
      if ← sees (Ahead.isWord "Self") then discard anyWord else discard name
  sign ">"

/-- The signs in front of a bound that ask for constant evaluation. -/
def constMark : Reader Bool := do
  if ← sees (Ahead.isGroup .bracket) then
    group .bracket (word "const")
    return true
  else if (← sees (Ahead.isSign "~")) && (← seesBehind 1 (Ahead.isWord "const")) then
    pass 2
    return true
  else hasWord "const"

/-- Reads a bound by a trait; its path may hold further bounds in its arguments. -/
def traitBoundWith (b : Below) (bound : Reader Bound) (allowsConst : Bool) : Reader Bound := do
  let isBound ← binder b
  let isConst ← constMark
  if isConst && !allowsConst then fail
  let isMaybe ← hasSign "?"
  if !isBound && isMaybe then discard (binder b)
  let (_, segments) ← pathWith b bound false
  let segments ←
    if lastIsBare segments && (← sees opensParens) then
      discard (hasSign "::")
      discard (parenArguments b)
      pure (withParens segments)
    else pure segments
  return if isConst then .other else .path segments

def boundWith (b : Below) (inner : Reader Bound) (allowsCaptures allowsConst : Bool) :
    Reader Bound := do
  if ← hasLifetime then return .lifetime
  else if ← sees (Ahead.isWord "use") then
    captures
    if allowsCaptures then return .other else fail
  else if ← sees (Ahead.isGroup .paren) then group .paren (traitBoundWith b inner allowsConst)
  else traitBoundWith b inner allowsConst

/-- Bounds of named arguments nested so many levels deep. -/
def nestedBound (b : Below) : Nat → Reader Bound
  | 0 => fail
  | depth + 1 => boundWith b (nestedBound b depth) false true

/-- A bound. A bound inside of another one stands behind at least one token, so their number is depth
enough. -/
def bound (b : Below) (allowsCaptures allowsConst : Bool) : Reader Bound := do
  boundWith b (nestedBound b (← ahead).length) allowsCaptures allowsConst

def path (b : Below) (inExpression : Bool) : Reader (Bool × List Segment) := do
  pathWith b (nestedBound b (← ahead).length) inExpression

def segment (b : Below) (inExpression : Bool) : Reader Segment := do
  segmentWith b (nestedBound b (← ahead).length) inExpression

/-- A path as a type reference, which a type between angles may open. -/
def qualifiedPath (b : Below) (inExpression : Bool) :
    Reader (Bool × Bool × List Segment) := do
  if ← hasSign "<" then
    discard (b.type true)
    let start ← if ← hasWord "as" then some <$> path b false else pure none
    sign ">"
    sign "::"
    let first ← segment b inExpression
    let others ← manyIf (Ahead.isSign "::") do
      sign "::"
      segment b inExpression
    match start with
    | some (isAbsolute, segments) => return (true, isAbsolute, segments ++ first :: others)
    | none => return (true, true, first :: others)
  else
    let (isAbsolute, segments) ← path b inExpression
    return (false, isAbsolute, segments)

def opensBound (ts : List Tree) : Bool :=
  Ahead.isAnyWord ts || Ahead.isSign "::" ts || Ahead.isSign "?" ts || Ahead.isLifetime ts ||
    Ahead.isGroup .paren ts

/-- Bounds behind the first one, each behind a plus sign; the last sign may stand alone. -/
def furtherBounds (b : Below) (allowsCaptures allowsConst : Bool) : Reader (List Bound) :=
  let opens (ts : List Tree) : Bool :=
    opensBound ts ||
      (allowsConst && (Ahead.isGroup .bracket ts || Ahead.isSign "~" ts))
  many do
    if ← hasSign "+" then
      if ← sees opens then some <$> bound b allowsCaptures allowsConst else return none
    else return none

/-- Bounds that stand for a type, of which one at least is no lifetime. -/
def bounds (b : Below) (allowsPlus allowsCaptures allowsConst : Bool) : Reader (List Bound) := do
  let first ← bound b allowsCaptures allowsConst
  let others ← if allowsPlus then furtherBounds b allowsCaptures allowsConst else pure []
  let isLifetime : Bound → Bool
    | .lifetime => true
    | _ => false
  if (first :: others).all isLifetime then fail else return first :: others

/-- A type that a path gives, where parentheses may stand for arguments. -/
def typePath (b : Below) : Reader (Bool × Bool × List Segment) := do
  let (isQualified, isAbsolute, segments) ← qualifiedPath b false
  let segments ← extend (fun segments => do
    if lastIsBare segments && (← sees opensParens) then
      discard (hasSign "::")
      let output ← parenArguments b
      let further ← match output with
        | none | some (.paren _) => furtherSegments b (nestedBound b (← ahead).length) false
        | _ => pure []
      return some (withParens segments ++ further)
    else return none) segments
  return (isQualified, isAbsolute, segments)

/-- What stands between parentheses where a type is expected. -/
inductive ParenContent
  | nothing
  | type (t : TypeRef)
  | bound (c : Bound)
  /-- One type, of which it depends on what follows whether it is a bound. -/
  | single (t : TypeRef)

def parenContent (b : Below) : Reader ParenContent := do
  if ← isAtEnd then return .nothing
  else if ← sees Ahead.isLifetime then
    return .type (.paren (.object false (← bounds b true false false)))
  else if ← sees (Ahead.isSign "?") then
    return .bound (← traitBoundWith b (nestedBound b (← ahead).length) false)
  else
    let first ← b.type true
    if ← hasSign "," then return .type (.tuple (first :: (← commaList (b.type true))))
    else return .single first

/-- Bounds behind one that has been read, each behind a plus sign. -/
def plusBounds (b : Below) : Reader (List Bound) :=
  manyIf (Ahead.isSign "+") do
    sign "+"
    bound b false false

def parenType (b : Below) (allowsPlus : Bool) : Reader TypeRef := do
  match ← group .paren (parenContent b) with
  | .nothing => return .tuple []
  | .type t => return t
  | .bound c => return .object false (c :: (← plusBounds b))
  | .single t =>
    if allowsPlus && (← sees (Ahead.isSign "+")) then
      match t with
      | .path false _ segments => return .object false (.path segments :: (← plusBounds b))
      | .object false [c] => return .object false (c :: (← plusBounds b))
      | t => return .paren t
    else return .paren t

/-- The name of a foreign interface behind `extern`. -/
def hasAbi : Reader Bool := do
  if ← hasWord "extern" then
    if ← sees Ahead.isText then pass
    return true
  else return false

/-- A parameter of a function type. The first one may be a receiver. -/
def functionTypeInput (b : Below) : Reader Unit := do
  discard (attributes b)
  let named (ts : List Tree) : Bool :=
    (Ahead.isName ts || Ahead.isOneOf ["_", "self"] ts) && Ahead.isSign ":" (ts.drop 1) &&
      !Ahead.isSign "::" (ts.drop 1)
  if (← sees (Ahead.isWord "mut")) && (← seesBehind 1 (Ahead.isWord "self")) then
    word "mut"
    if ← sees named then
      pass 2
      discard (b.type true)
    else word "self"
  else
    if ← sees named then pass 2
    if !(← hasSign "...") then discard (b.type true)

def functionType (b : Below) : Reader Unit := do
  discard (binder b)
  discard (hasWord "unsafe")
  discard hasAbi
  word "fn"
  discard <| group .paren (commaList (functionTypeInput b))
  discard (returnType b false)

def opensPath (ts : List Tree) : Bool :=
  Ahead.isPathWord ts || Ahead.isWord "Self" ts || Ahead.isSign "::" ts || Ahead.isSign "<" ts

/-- A type by its path, alone or as the first of several bounds. -/
def pathType (b : Below) (isBound allowsPlus : Bool) : Reader TypeRef := do
  let (isQualified, isAbsolute, segments) ← typePath b
  let t := TypeRef.path isQualified isAbsolute segments
  if isQualified then return t
  else if (← sees (Ahead.isSign "!")) && !(← sees (Ahead.isSign "!=")) &&
      segments.all (·.arguments.isNone) then
    sign "!"
    discard anyGroup
    return .other
  else if isBound || (allowsPlus && (← sees (Ahead.isSign "+"))) then
    let others ← if allowsPlus then furtherBounds b false false else pure []
    return .object false (.path segments :: others)
  else return t

def type (b : Below) (allowsPlus : Bool) : Reader TypeRef := do
  let isBound ← binder b
  let isFunction := Ahead.isOneOf ["fn", "unsafe", "extern"]
  if isBound && !(← sees fun ts =>
      Ahead.isPathWord ts || Ahead.isWord "Self" ts || isFunction ts) then fail
  if ← sees (Ahead.isGroup .paren) then parenType b allowsPlus
  else if ← sees isFunction then
    functionType b
    return .other
  else if ← sees opensPath then pathType b isBound allowsPlus
  else if ← hasWord "dyn" then
    let isRaw ← hasSign "*"
    let bs ← bounds b allowsPlus false false
    return if isRaw then .other else .object true bs
  else if ← sees (Ahead.isGroup .bracket) then
    group .bracket do
      let t ← b.type true
      if ← hasSign ";" then
        discard (b.expression true)
        return .array t
      else return .slice t
  else if ← hasSign "*" then
    if !(← hasWord "const") then word "mut"
    discard (b.type false)
    return .other
  else if ← hasSign "&" then
    discard hasLifetime
    discard (hasWord "mut")
    return .reference (← b.type false)
  else if ← hasSign "!" then return .other
  else if ← hasWord "impl" then return .someOf (← bounds b allowsPlus true true)
  else
    word "_"
    return .other

/-- A generic parameter, and its name if it stands for a type. -/
def parameter (b : Below) : Reader (Option String) := do
  discard (attributes b)
  let ends (ts : List Tree) : Bool := Ahead.isSign "," ts || Ahead.isSign ">" ts
  if ← hasLifetime then
    if ← hasSign ":" then discard <| joined ends "+" lifetime
    return none
  else if ← hasWord "const" then
    discard name
    sign ":"
    discard (b.type true)
    if ← hasSign "=" then constant b
    return none
  else if ← hasWord "_" then return some "_"
  else
    let n ← name
    if ← hasSign ":" then
      discard <| joined (fun ts => ends ts || Ahead.isSign "=" ts) "+" (bound b false true)
    if ← hasSign "=" then discard (b.type true)
    return some n

/-- The names of the types that are parameters. -/
def generics (b : Below) : Reader (List String) := do
  if ← hasSign "<" then
    let names ← separated (Ahead.isSign ">") "," (parameter b)
    sign ">"
    return names.filterMap id
  else return []

/-- What may follow a condition on a parameter. -/
def endsCondition (ts : List Tree) : Bool :=
  ts.isEmpty || Ahead.isGroup .brace ts || Ahead.isSign "," ts || Ahead.isSign ";" ts ||
    (Ahead.isSign ":" ts && !Ahead.isSign "::" ts) || Ahead.isSign "=" ts

def condition (b : Below) : Reader Unit := do
  if (← sees Ahead.isLifetime) && (← seesBehind 1 (Ahead.isSign ":")) then
    lifetime
    sign ":"
    discard <| joined endsCondition "+" lifetime
  else
    discard (binder b)
    discard (b.type true)
    sign ":"
    discard <| joined endsCondition "+" (bound b false true)

def hasConditions (b : Below) : Reader Bool := do
  if ← hasWord "where" then
    discard <| joined endsCondition "," (condition b)
    return true
  else return false

end EndpointDocs.Source.Reader

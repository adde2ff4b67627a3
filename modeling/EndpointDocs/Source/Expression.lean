import EndpointDocs.Source.Literal
import EndpointDocs.Source.Operator

namespace EndpointDocs.Source.Reader

def arguments (b : Below) : Reader Unit := do
  discard <| group .paren (commaList (b.expression true))

/-- The condition and what depends on it, with all alternatives. -/
def conditional (b : Below) : Reader Expression := do
  let clause : Reader Unit := do
    word "if"
    discard (b.expression false)
    block b
  clause
  discard <| manyIf (fun ts => Ahead.isWord "else" ts && Ahead.isWord "if" (ts.drop 1)) do
    word "else"
    clause
  if ← hasWord "else" then block b
  return .block

def whileLoop (b : Below) : Reader Expression := do
  word "while"
  discard (b.expression false)
  discard (body b)
  return .block

def forLoop (b : Below) : Reader Expression := do
  word "for"
  discard (b.binding true)
  word "in"
  discard (b.expression false)
  discard (body b)
  return .block

def bracedBody (b : Below) : Reader Expression := do
  discard (body b)
  return .block

def plainLoop (b : Below) : Reader Expression := do
  word "loop"
  bracedBody b

/-- A loop or a block with a label. -/
def labeled (b : Below) : Reader Expression := do
  lifetime
  sign ":"
  if ← sees (Ahead.isWord "while") then whileLoop b
  else if ← sees (Ahead.isWord "for") then forLoop b
  else if ← sees (Ahead.isWord "loop") then plainLoop b
  else bracedBody b

/-- A closure that names lifetimes, as opposed to a loop. -/
def opensBinder (ts : List Tree) : Bool :=
  Ahead.isWord "for" ts && Ahead.isSign "<" (ts.drop 1) &&
    (Ahead.isLifetime (ts.drop 2) || Ahead.isSign ">" (ts.drop 2))

def list (b : Below) : Reader Expression :=
  group .bracket do
    if ← isAtEnd then return { value := .list [] }
    else
      let first ← b.expression true
      if ← hasSign ";" then
        discard (b.expression true)
        return {}
      else if ← isAtEnd then return { value := .list [first.value] }
      else
        sign ","
        let others ← commaList (b.expression true)
        return { value := .list (first.value :: others.map (·.value)) }

/-- The value of a field, which is that of the variable of its name if none is given. -/
def fieldValue (b : Below) : Reader Unit := do
  discard (attributes b)
  let n ← member
  if n.isNone || (← sees (Ahead.isSign ":")) then
    sign ":"
    discard (b.expression true)

/-- The fields of a record, and behind two points the record that has the values of all others. -/
def record (b : Below) : Reader Expression :=
  group .brace do
    discard <| many do
      if ← sees fun ts => ts.isEmpty || Ahead.isSign ".." ts then return none
      fieldValue b
      if !(← isAtEnd) then sign ","
      return some ()
    if ← hasSign ".." then
      if !(← isAtEnd) then discard (b.expression true)
    return .braced

def pathExpression (b : Below) (allowsRecord : Bool) : Reader Expression := do
  let (isQualified, _, segments) ← qualifiedPath b true
  if !isQualified && (← sees isMacroSign) && segments.all (·.arguments.isNone) then
    sign "!"
    let (d, _) ← anyGroup
    return { form := .invocation (d = .brace), endsInBrace := d = .brace }
  else if allowsRecord && (← sees (Ahead.isGroup .brace)) then record b
  else return { value := .path ((segments.getLast?.map (·.name)).getD "") }

/-- A parameter of a closure. -/
def closureInput (b : Below) : Reader Unit := do
  discard (attributes b)
  discard (b.binding false)
  if ← hasSign ":" then discard (b.type true)

def opensClosure (ts : List Tree) : Bool :=
  Ahead.isSign "|" ts || Ahead.isOneOf ["move", "static"] ts || opensBinder ts ||
    (Ahead.isWord "const" ts && !Ahead.isGroup .brace (ts.drop 1)) ||
    (Ahead.isWord "async" ts &&
      (Ahead.isSign "|" (ts.drop 1) || Ahead.isWord "move" (ts.drop 1)))

def closure (b : Below) (allowsRecord : Bool) : Reader Expression := do
  discard (binder b)
  discard (hasWord "const")
  discard (hasWord "static")
  discard (hasWord "async")
  discard (hasWord "move")
  sign "|"
  discard (separated (Ahead.isSign "|") "," (closureInput b))
  sign "|"
  if ← hasSign "->" then
    discard (b.type true)
    block b
    return .braced
  else return .endingIn (some (← b.expression allowsRecord))

/-- The end of a loop or function, with a value if one follows. -/
def withValue (b : Below) (allowsRecord : Bool) : Reader Expression := do
  if ← sees Ahead.opensExpression then return .endingIn (some (← b.expression allowsRecord))
  else return .endingIn none

/-- The end of a loop, which a label may name. A loop with a label is no value for it. -/
def breakExpression (b : Below) (allowsRecord : Bool) : Reader Expression := do
  word "break"
  if ← hasLifetime then
    if ← sees (Ahead.isSign ":") then fail
  if !allowsRecord && (← sees (Ahead.isGroup .brace)) then return {}
  else withValue b allowsRecord

/-- An expression between parentheses, or several with commas behind them. -/
def parenExpression (b : Below) : Reader Expression := do
  arguments b
  return {}

/-- Blocks that are known by their first words. -/
def opensAsync (ts : List Tree) : Bool :=
  Ahead.isWord "async" ts && (Ahead.isGroup .brace (ts.drop 1) ||
    (Ahead.isWord "move" (ts.drop 1) && Ahead.isGroup .brace (ts.drop 2)))

def opensTry (ts : List Tree) : Bool :=
  Ahead.isWord "try" ts && Ahead.isGroup .brace (ts.drop 1)

def asyncBlock (b : Below) : Reader Expression := do
  word "async"
  discard (hasWord "move")
  block b
  return .braced

def tryBlock (b : Below) : Reader Expression := do
  word "try"
  block b
  return .block

def builtin : Reader Expression := do
  word "builtin"
  sign "#"
  discard anyWord
  match ← anyGroup with
  | (.paren, _) => return {}
  | _ => fail

/-- One case of a choice by patterns. A comma has to follow, but behind a block and at the end. -/
def arm (b : Below) : Reader Unit := do
  discard (attributes b)
  discard (b.binding true)
  if ← hasWord "if" then discard (b.expression true)
  sign "=>"
  let e ← b.early
  if !(← hasSign ",") then
    if !e.isBlock && !(← isAtEnd) then fail

def choice (b : Below) : Reader Expression := do
  word "match"
  discard (b.expression false)
  group .brace do
    discard (innerAttributes b)
    discard <| manyIf (!·.isEmpty) (arm b)
  return .block

/-- Expressions that a word opens which ends in a block, if such a word comes next. -/
def blockExpression? (b : Below) : Reader (Option Expression) := do
  if ← sees (Ahead.isWord "if") then some <$> conditional b
  else if ← sees (Ahead.isWord "while") then some <$> whileLoop b
  else if ← sees fun ts => Ahead.isWord "for" ts && !opensBinder ts then some <$> forLoop b
  else if ← sees (Ahead.isWord "loop") then some <$> plainLoop b
  else if ← sees (Ahead.isWord "match") then some <$> choice b
  else if ← sees opensTry then some <$> tryBlock b
  else if ← hasWord "unsafe" then some <$> bracedBody b
  else if ← sees fun ts => Ahead.isWord "const" ts && Ahead.isGroup .brace (ts.drop 1) then
    constantBlock b
    return some .block
  else if ← sees (Ahead.isGroup .brace) then some <$> bracedBody b
  else if ← sees Ahead.isLifetime then some <$> labeled b
  else return none

/-- The rest of an expression by a pattern, which is true if it matches. -/
def letExpression (b : Below) (allowsRecord : Bool) : Reader Expression := do
  word "let"
  discard (b.binding true)
  sign "="
  let left ← b.unary allowsRecord
  return .endingIn (some (← climb b allowsRecord (b.unary allowsRecord) left .compare))

def rangeExpression (b : Below) (allowsRecord : Bool) : Reader Expression := do
  let isClosed ← rangeSign false
  rangeEnd isClosed allowsRecord (operand b allowsRecord (b.unary allowsRecord) .range)

/-- An operand without signs in front of it or behind it. -/
def atom (b : Below) (allowsRecord : Bool) : Reader Expression := do
  let opensTryPath (ts : List Tree) : Bool :=
    Ahead.isWord "try" ts && (Ahead.isSign "!" (ts.drop 1) || Ahead.isSign "::" (ts.drop 1))
  let opensBuiltin (ts : List Tree) : Bool :=
    Ahead.isWord "builtin" ts && Ahead.isSign "#" (ts.drop 1)
  if ← sees Ahead.isLiteral then return { value := .literal (← literal) }
  else if ← sees opensAsync then asyncBlock b
  else if ← sees opensClosure then closure b allowsRecord
  else if ← sees opensBuiltin then builtin
  else if ← sees fun ts => opensPath ts || opensTryPath ts then pathExpression b allowsRecord
  else if ← sees (Ahead.isGroup .paren) then parenExpression b
  else if ← sees (Ahead.isWord "break") then breakExpression b allowsRecord
  else if ← hasWord "continue" then
    discard hasLifetime
    return {}
  else if ← sees (Ahead.isOneOf ["return", "yield"]) then
    pass
    withValue b true
  else if ← hasWord "become" then return .endingIn (some (← b.expression true))
  else if ← sees (Ahead.isGroup .bracket) then list b
  else if ← sees (Ahead.isWord "let") then letExpression b allowsRecord
  else if ← sees (Ahead.isSign "..") then rangeExpression b allowsRecord
  else if ← hasWord "_" then return {}
  else
    match ← blockExpression? b with
    | some e => return e
    | none => fail

/-- The arguments between angles behind a name of a function. -/
def turbofish (b : Below) : Reader Unit := do
  sign "::"
  sign "<"
  discard <| separated (Ahead.isSign ">") "," do
    argumentWith b (nestedBound b (← ahead).length)
  sign ">"

/-- Whether a number with a fraction is two places in a row, and whether it ends in a point. -/
def places? (digits suffix : String) : Option Bool :=
  let parts := (digits.splitOn ".").map (·.toList)
  let isPlace (cs : List Char) : Bool :=
    !cs.isEmpty && cs.all isDecimalDigit && (String.ofList cs).toNat?.any (· < Nat.pow 2 32)
  let endsInPoint := parts.getLast? = some []
  let parts := if endsInPoint then parts.dropLast else parts
  if suffix.isEmpty && parts.all isPlace then some endsInPoint else none

/-- The member behind a point, or the call of a function of that name. -/
def memberAccess (b : Below) : Reader Unit := do
  let n ← member
  if n.isSome then
    if ← sees (Ahead.isSign "::") then
      turbofish b
      arguments b
    else if ← sees (Ahead.isGroup .paren) then arguments b

/-- What stands behind a point. Two places in a row are a number with a fraction. -/
def behindPoint (b : Below) : Reader Unit := do
  match ← ahead with
  | .literal (.float digits suffix) :: _ =>
    match places? digits suffix with
    | none => fail
    | some endsInPoint =>
      pass
      if endsInPoint then
        if !(← hasWord "await") then memberAccess b
  | _ => if !(← hasWord "await") then memberAccess b

/-- Goes on with an operand that is called, indexed, asked for a member or left on failure. -/
def trailer? (b : Below) (e : Expression) : Reader (Option Expression) := do
  if ← sees (Ahead.isGroup .paren) then
    arguments b
    return some {}
  else if (← sees Ahead.isPoint) && !e.isRange then
    sign "."
    behindPoint b
    return some {}
  else if ← sees (Ahead.isGroup .bracket) then
    group .bracket (discard (b.expression true))
    return some {}
  else if (← sees (Ahead.isSign "?")) && !e.isRange then
    sign "?"
    return some {}
  else return none

/-- Whether a reference is to be taken without making one of it first. -/
def opensRaw (ts : List Tree) : Bool :=
  Ahead.isWord "raw" ts && Ahead.isOneOf ["mut", "const"] (ts.drop 1)

def reference (b : Below) (allowsRecord : Bool) : Reader Expression := do
  sign "&"
  if ← sees opensRaw then
    pass 2
    return { ← b.unary allowsRecord with form := .other, value := .other }
  else
    discard (hasWord "mut")
    let e ← b.unary allowsRecord
    return { value := .reference e.value, endsInBrace := e.endsInBrace }

/-- An operand with the signs in front of it and all that stands behind it. -/
def unary (b : Below) (allowsRecord : Bool) : Reader Expression := do
  let marks ← attributes b
  if ← sees (Ahead.isSign "&") then reference b allowsRecord
  else if ← sees fun ts => ["*", "!", "-"].any (Ahead.isSign · ts) then
    pass
    return .endingIn (some (← b.unary allowsRecord))
  else
    let e ← extend (trailer? b) (← atom b allowsRecord)
    if e.isRange && !marks.isEmpty then fail else return e

def expression (b : Below) (allowsRecord : Bool) : Reader Expression := do
  climb b allowsRecord (unary b allowsRecord) (← unary b allowsRecord) .none

/-- An expression that ends with its first block, if a block is what it begins with, unless a member
of its value follows. -/
def earlyExpression (b : Below) : Reader Expression := do
  discard (attributes b)
  match ← blockExpression? b with
  | none => climb b true (unary b true) (← unary b true) .none
  | some e =>
    if ← sees fun ts => Ahead.isPoint ts || Ahead.isSign "?" ts then
      climb b true (unary b true) (← extend (trailer? b) e) .none
    else return e

end EndpointDocs.Source.Reader

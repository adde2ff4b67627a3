import EndpointDocs.Source.TypeRef

namespace EndpointDocs.Source

inductive Visibility
  | inherited
  | restricted
  | everywhere
  deriving DecidableEq

namespace Ahead

/-- The tokens behind the word, if it comes next. -/
def dropWord (w : String) (ts : List Tree) : List Tree :=
  if isWord w ts then ts.drop 1 else ts

/-- The tokens behind the name of a foreign interface, if it comes next. -/
def dropAbi (ts : List Tree) : List Tree :=
  if isWord "extern" ts then
    if isText (ts.drop 1) then ts.drop 2 else ts.drop 1
  else ts

/-- Whether the signature of a function comes next. -/
def opensSignature (allowsSafe : Bool) (ts : List Tree) : Bool :=
  let ts := dropWord "async" (dropWord "const" ts)
  let ts := if allowsSafe && isWord "safe" ts then ts.drop 1 else dropWord "unsafe" ts
  isWord "fn" (dropAbi ts)

end Ahead

namespace Reader

/-- The place inside of which something may be used. -/
def scope : Reader Unit :=
  group .paren do
    if ← hasWord "in" then discard plainPath
    else if ← sees (Ahead.isOneOf ["crate", "self", "super"]) then pass
    else fail

def visibility : Reader Visibility := do
  if ← hasWord "pub" then
    return if (← attempt scope).isSome then .restricted else .everywhere
  else return .inherited

/-- The parameter that a function is called on. -/
def receiver (b : Below) : Reader Unit := do
  let isReference ← hasSign "&"
  if isReference then discard hasLifetime
  discard (hasWord "mut")
  word "self"
  if !isReference then
    if ← hasSign ":" then discard (b.type true)

/-- A parameter, unless it stands for any number of them. -/
def input? (b : Below) : Reader (Option Input) := do
  let attributes ← attributes b
  if ← hasSign "..." then return none
  else if (← attempt (receiver b)).isSome then return some .receiver
  else if ← sees fun ts => Ahead.isName ts && Ahead.isSign "<" (ts.drop 1) then
    return some (.typed attributes none (← b.type true))
  else
    let name := (← b.binding false).name
    sign ":"
    if ← hasSign "..." then return none
    else return some (.typed attributes name (← b.type true))

def isReceiver : Input → Bool
  | .receiver => true
  | .typed .. => false

/-- The parameters of a function. Only the first one may be what it is called on, and what stands
for any number of parameters ends them. -/
def inputs (b : Below) : Reader (List Input) := do
  let all ← many do
    if ← isAtEnd then return none
    let i ← input? b
    if !(← isAtEnd) then sign ","
    return i
  if (all.drop 1).any isReceiver then fail else return all

def signature (b : Below) (allowsSafe : Bool) : Reader FunctionItem := do
  discard (hasWord "const")
  discard (hasWord "async")
  if allowsSafe && (← sees (Ahead.isWord "safe")) then pass else discard (hasWord "unsafe")
  discard hasAbi
  word "fn"
  let n ← name
  discard (generics b)
  let inputs ← group .paren (inputs b)
  let output ← returnType b true
  discard (hasConditions b)
  return { attributes := [], name := n, inputs, output }

end Reader

end EndpointDocs.Source

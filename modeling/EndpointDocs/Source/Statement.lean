import EndpointDocs.Source.Expression

namespace EndpointDocs.Source

namespace Ahead

/-- Whether an item comes next and not an expression. -/
def opensItem (ts : List Tree) : Bool :=
  let next := ts.drop 1
  match ts with
  | .word w :: _ =>
    w ∈ ["pub", "extern", "use", "fn", "mod", "type", "struct", "enum", "trait", "impl", "macro"] ||
      (w = "crate" && !isSign "::" next) ||
      (w = "static" && (isWord "mut" next || isName next)) ||
      (w = "const" && !(isGroup .brace next || isOneOf ["static", "move"] next || isSign "|" next ||
        (isWord "async" next && !isOneOf ["unsafe", "extern", "fn"] (next.drop 1)))) ||
      (w = "unsafe" && !isGroup .brace next) ||
      (w = "async" && isOneOf ["unsafe", "extern", "fn"] next) ||
      (w = "union" && isName next) || (w = "auto" && isWord "trait" next) ||
      (w = "default" && isOneOf ["unsafe", "impl"] next)
  | _ => false

end Ahead

namespace Reader

/-- Reads ahead without taking tokens. -/
def peeking {α : Type} (p : Reader α) : Reader α := do
  let r ← get
  let a ← p
  set r
  return a

/-- Values that are bound. If they need not match, a block may say what happens if they do not. -/
def letStatement (b : Below) : Reader Unit := do
  word "let"
  discard (b.binding false)
  if ← hasSign ":" then discard (b.type true)
  if ← hasSign "=" then
    let e ← b.expression true
    if !e.endsInBrace then
      if ← hasWord "else" then block b
  sign ";"

/-- What stands behind the exclamation mark of an invocation. -/
def invocation? : Reader (Option (List Tree)) :=
  peeking <| attempt do
    discard plainPath
    sign "!"
    ahead

/-- An invocation with braces, of whose value no member follows. -/
def isBracedInvocation (ts : List Tree) : Bool :=
  let next := ts.drop 1
  Ahead.isGroup .brace ts && !Ahead.isPoint next && !Ahead.isSign "?" next

/-- Whether a semicolon is missing behind an expression if another statement follows. -/
def lacksEnd : Form → Bool
  | .block | .invocation true => false
  | _ => true

/-- Reads a statement, and tells whether a semicolon has to come before another one. -/
def statement (b : Below) : Reader Bool := do
  let start ← get
  discard (attributes b)
  let inner ← invocation?
  if inner.any isBracedInvocation then
    discard plainPath
    sign "!"
    discard anyGroup
    discard (hasSign ";")
    return false
  else if ← sees (Ahead.isWord "let") then
    letStatement b
    return false
  else if (← sees Ahead.opensItem) ||
      inner.any (fun ts => Ahead.isName ts || Ahead.isWord "try" ts) then
    set start
    b.item
    return false
  else
    let e ← earlyExpression b
    if ← hasSign ";" then return false else return lacksEnd e.form

def statements (b : Below) : Reader Unit :=
  discard <| manyIf (!·.isEmpty) do
    if !(← hasSign ";") then
      let lacks ← statement b
      if lacks && !(← isAtEnd) then fail

end Reader

end EndpointDocs.Source

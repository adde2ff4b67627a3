import EndpointDocs.Source.Binding

namespace EndpointDocs.Source

/-- Precedences, from loose to tight. The loosest one is that of no operator. -/
inductive Precedence
  | none
  | assign
  | range
  | or
  | and
  | binding
  | compare
  | bitOr
  | bitXor
  | bitAnd
  | shift
  | sum
  | product
  | cast
  deriving DecidableEq

namespace Precedence

def level : Precedence → Nat
  | none => 0
  | assign => 1
  | range => 2
  | or => 3
  | and => 4
  | binding => 5
  | compare => 6
  | bitOr => 7
  | bitXor => 8
  | bitAnd => 9
  | shift => 10
  | sum => 11
  | product => 12
  | cast => 13

end Precedence

/-- The operators between two operands. One that another one begins with stands behind it. -/
def operators : List (String × Precedence) :=
  [("+=", .assign), ("-=", .assign), ("*=", .assign), ("/=", .assign), ("%=", .assign),
    ("^=", .assign), ("&=", .assign), ("|=", .assign), ("<<=", .assign), (">>=", .assign),
    ("&&", .and), ("||", .or), ("<<", .shift), (">>", .shift), ("==", .compare), ("<=", .compare),
    ("!=", .compare), (">=", .compare), ("+", .sum), ("-", .sum), ("*", .product), ("/", .product),
    ("%", .product), ("^", .bitXor), ("&", .bitAnd), ("|", .bitOr), ("<", .compare),
    (">", .compare)]

namespace Ahead

/-- The operator between two operands that comes next. -/
def operator? (ts : List Tree) : Option (String × Precedence) :=
  operators.find? fun (s, _) => isSign s ts

def isAssignment (ts : List Tree) : Bool :=
  isSign "=" ts && !isSign "=>" ts

/-- The precedence of what comes next. -/
def precedence (ts : List Tree) : Precedence :=
  match operator? ts with
  | some (_, p) => p
  | none =>
    if isAssignment ts then .assign
    else if isSign ".." ts then .range
    else if isWord "as" ts then .cast
    else .none

/-- Whether the sign comes next, but none of the longer ones. -/
def isSignBut (s : String) (longer : List String) (ts : List Tree) : Bool :=
  isSign s ts && !longer.any (isSign · ts)

def isPoint : List Tree → Bool :=
  isSignBut "." [".."]

/-- Whether an expression can begin here. -/
def opensExpression (ts : List Tree) : Bool :=
  (isAnyWord ts && !isWord "as" ts) || isAnyGroup ts || isLiteral ts || isSignBut "!" ["!="] ts ||
    isSignBut "-" ["-=", "->"] ts || isSignBut "*" ["*="] ts || isSignBut "|" ["|="] ts ||
    isSignBut "&" ["&="] ts || isSign ".." ts || isSignBut "<" ["<=", "<<="] ts ||
    isSign "::" ts || isLifetime ts || isSign "#" ts

/-- Whether a range without an end is over before these tokens. -/
def endsRange (allowsRecord : Bool) (ts : List Tree) : Bool :=
  ts.isEmpty || isPoint ts || (!allowsRecord && isGroup .brace ts) || isWord "as" ts ||
    [",", ";", "?", "=>", "=", "+", "/", "%", "^", ">", "<=", "!=", "-=", "*=", "&=", "|=",
      "<<="].any (isSign · ts)

end Ahead

namespace Expression

def isRange (e : Expression) : Bool :=
  e.form = .range

def isBlock (e : Expression) : Bool :=
  e.form = .block

/-- An expression that ends in a block and can be a statement by itself. -/
def block : Expression :=
  { form := .block, endsInBrace := true }

/-- An expression that ends in a block but cannot be a statement by itself. -/
def braced : Expression :=
  { endsInBrace := true }

/-- An expression that goes on behind a word or sign with another one, if there is one. -/
def endingIn (e : Option Expression) : Expression :=
  { endsInBrace := e.any (·.endsInBrace) }

end Expression

namespace Reader

/-- The end of a range, if it has one. -/
def rangeEnd (isClosed allowsRecord : Bool) (operand : Reader Expression) : Reader Expression := do
  if !isClosed && (← sees (Ahead.endsRange allowsRecord)) then return { form := .range }
  else return { form := .range, endsInBrace := (← operand).endsInBrace }

/-- What may not stand behind a cast. -/
def extendsCast (ts : List Tree) : Bool :=
  Ahead.isPoint ts || Ahead.isSign "?" ts || Ahead.isGroup .bracket ts || Ahead.isGroup .paren ts

/-- Whether an operand goes on with an operator behind it. -/
def bindsTighter (next outer : Precedence) : Bool :=
  outer.level < next.level || (next = outer && outer = .assign)

section

variable (b : Below) (allowsRecord : Bool) (unary : Reader Expression)

mutual

/-- Goes on behind an operand with all operators that do not bind looser than the base. A range is
no operand, and comparisons do not chain. -/
def climbWithin (fuel : Nat) (left : Expression) (base : Precedence) : Reader Expression := do
  match fuel with
  | 0 => fail
  | fuel + 1 =>
    let ts ← ahead
    if left.isRange then return left
    else if let some (s, p) := Ahead.operator? ts then
      if p.level < base.level then return left
      else if p = .compare && left.form = .comparison then fail
      else
        pass s.length
        let right ← operandWithin fuel p
        let form := if p = .compare then .comparison else .other
        climbWithin fuel { form, endsInBrace := right.endsInBrace } base
    else if base.level ≤ Precedence.assign.level && Ahead.isAssignment ts then
      pass
      let right ← operandWithin fuel .assign
      let value := Value.assignment left.value right.value
      climbWithin fuel { value, endsInBrace := right.endsInBrace } base
    else if base.level ≤ Precedence.range.level && Ahead.isSign ".." ts then
      let isClosed ← rangeSign false
      rangeEnd isClosed allowsRecord (operandWithin fuel .range)
    else if base.level ≤ Precedence.cast.level && Ahead.isWord "as" ts then
      pass
      discard (b.type false)
      if ← sees extendsCast then fail else climbWithin fuel {} base
    else return left

/-- The operand behind an operator. -/
def operandWithin (fuel : Nat) (outer : Precedence) : Reader Expression := do
  match fuel with
  | 0 => fail
  | fuel + 1 => tightenWithin fuel (← unary) outer

/-- Goes on with an operand as long as operators that bind tighter follow and can be read. -/
def tightenWithin (fuel : Nat) (right : Expression) (outer : Precedence) : Reader Expression := do
  match fuel with
  | 0 => fail
  | fuel + 1 =>
    let ts ← ahead
    if bindsTighter (Ahead.precedence ts) outer then
      let next ← climbWithin fuel right (Ahead.precedence ts)
      if (← ahead).length = ts.length then return next else tightenWithin fuel next outer
    else return right

end

/-- Goes on behind an operand. At most three steps are made for one token, so the fuel does not run
out. -/
def climb (left : Expression) (base : Precedence) : Reader Expression := do
  climbWithin b allowsRecord unary (3 * (← ahead).length + 3) left base

def operand (outer : Precedence) : Reader Expression := do
  operandWithin b allowsRecord unary (3 * (← ahead).length + 3) outer

end

end Reader

end EndpointDocs.Source

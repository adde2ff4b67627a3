import EndpointDocs.Chars.Blank
import EndpointDocs.Source.Literal

namespace EndpointDocs.Source

/-- White space, and the marks that turn the direction of a text. -/
def isSpace (c : Char) : Bool :=
  Chars.isBlank c || c = '\u200e' || c = '\u200f'

/-- The text of a comment that may hold others, behind its opening sign, and what follows it. The
text stands backwards. -/
def readBlock (depth : Nat) (seen : List Char) : List Char → Option (List Char × List Char)
  | '*' :: '/' :: cs =>
    match depth with
    | 0 => some (seen, cs)
    | depth + 1 => readBlock depth ('/' :: '*' :: seen) cs
  | '/' :: '*' :: cs => readBlock (depth + 1) ('*' :: '/' :: seen) cs
  | c :: cs => readBlock depth (c :: seen) cs
  | [] => none

/-- A line without the carriage return at its end, and what follows it. -/
def splitLine (cs : List Char) : List Char × List Char :=
  let line := cs.takeWhile (· ≠ '\n')
  let rest := cs.dropWhile (· ≠ '\n')
  if rest.isEmpty then (line, rest) else ((['\r'].isSuffixOf? line).getD line, rest)

/-- A comment at the start of a text. -/
inductive Comment
  | plain
  | doc (isInner : Bool) (text : List Char)

/-- Reads a comment. Those with more than one sign of documentation are plain again. -/
def Comment.read : List Char → Option (Comment × List Char)
  | '/' :: '/' :: '/' :: '/' :: cs => some (.plain, (splitLine cs).2)
  | '/' :: '/' :: '/' :: cs => some (.doc false (splitLine cs).1, (splitLine cs).2)
  | '/' :: '/' :: '!' :: cs => some (.doc true (splitLine cs).1, (splitLine cs).2)
  | '/' :: '/' :: cs => some (.plain, (splitLine cs).2)
  | '/' :: '*' :: cs =>
    (readBlock 0 [] cs).map fun (seen, rest) =>
      match seen.reverse, cs with
      | _, '*' :: '*' :: _ | _, '*' :: '/' :: _ => (.plain, rest)
      | '*' :: text, _ => (.doc false text, rest)
      | '!' :: text, _ => (.doc true text, rest)
      | _, _ => (.plain, rest)
  | _ => none

/-- Passes over white space and plain comments. The length of the text is fuel enough. -/
def passSpace (fuel : Nat) (cs : List Char) : List Char :=
  match fuel with
  | 0 => cs
  | fuel + 1 =>
    match cs.dropWhile isSpace with
    | [] => []
    | cs =>
      match Comment.read cs with
      | some (.plain, rest) => passSpace fuel rest
      | _ => cs

/-- The attribute that a documentation comment stands for. -/
def docAttribute (isInner : Bool) (text : List Char) : List Tree :=
  let inner := Tree.group .bracket
    [.word "doc", .sign '=' false, .literal (.text (String.ofList text))]
  if isInner then [.sign '#' false, .sign '!' false, inner] else [.sign '#' false, inner]

/-- Words that may not be written with `r#`. -/
def notRaw : List String :=
  ["_", "super", "self", "Self", "crate"]

/-- A word, which `r#` may open. -/
def readWord (cs : List Char) : Option (String × List Char) :=
  match cs with
  | 'r' :: '#' :: rest =>
    let (word, rest) := splitWord rest
    if word.isEmpty || notRaw.any (·.toList = word) then none
    else some (String.ofList ('r' :: '#' :: word), rest)
  | cs =>
    let (word, rest) := splitWord cs
    if word.isEmpty then none else some (String.ofList word, rest)

/-- Whether an operator's character comes next. -/
def opensSign : List Char → Bool
  | '/' :: c :: _ => c ≠ '/' && c ≠ '*'
  | c :: _ => c ∈ "~!@#$%^&*-=+|;:,<.>/?'".toList
  | [] => false

/-- A lifetime behind its quotation mark. -/
def readLifetime (cs : List Char) : Option (Tree × List Char) := do
  let (name, rest) ← readWord cs
  let isRaw := ['r', '#'].isPrefixOf cs
  if rest.head? = some '\'' || (rest.head? = some '#' && !isRaw) then none
  else return (.lifetime name, rest)

/-- What opens a literal and never a word. -/
def literalSigns : List String :=
  ["r\"", "r#\"", "r##", "b\"", "b'", "br\"", "br#", "c\"", "cr\"", "cr#"]

/-- A token that is no bracket. -/
def readLeaf (cs : List Char) : Option (Tree × List Char) :=
  match readLiteral cs with
  | some (l, rest) => some (.literal l, rest)
  | none =>
    match cs with
    | '\'' :: rest => readLifetime rest
    | c :: rest =>
      if opensSign cs then some (.sign c (opensSign rest), rest)
      else if literalSigns.any fun s => s.toList.isPrefixOf cs then none
      else (readWord cs).map fun (word, rest) => (.word word, rest)
    | [] => none

def Delimiter.ofOpening? : Char → Option Delimiter
  | '(' => some .paren
  | '[' => some .bracket
  | '\x7b' => some .brace
  | _ => none

def Delimiter.ofClosing? : Char → Option Delimiter
  | ')' => some .paren
  | ']' => some .bracket
  | '\x7d' => some .brace
  | _ => none

/-- The trees so far, backwards, of the groups that are open, the innermost first. -/
structure Open where
  trees : List Tree := []
  outer : List (Delimiter × List Tree) := []

namespace Open

/-- Adds trees, which are given backwards. -/
def add (o : Open) (trees : List Tree) : Open :=
  { o with trees := trees ++ o.trees }

def close (o : Open) (d : Delimiter) : Option Open :=
  match o.outer with
  | (e, trees) :: outer =>
    if d = e then some ⟨.group d o.trees.reverse :: trees, outer⟩ else none
  | [] => none

/-- The next token, added to what is open. -/
def step (o : Open) (cs : List Char) : Option (Open × List Char) :=
  match Comment.read cs with
  | some (.doc isInner text, rest) =>
    if hasWholeBreaks text then some (o.add (docAttribute isInner text).reverse, rest) else none
  | _ =>
    match cs with
    | [] => none
    | c :: rest =>
      match Delimiter.ofOpening? c, Delimiter.ofClosing? c with
      | some d, _ => some (⟨[], (d, o.trees) :: o.outer⟩, rest)
      | none, some d => (o.close d).map (·, rest)
      | none, none => (readLeaf cs).map fun (t, rest) => (o.add [t], rest)

/-- Every token takes a character, so the length of the text is fuel enough. -/
def run (o : Open) (fuel : Nat) (cs : List Char) : Option (List Tree) :=
  match fuel with
  | 0 => none
  | fuel + 1 =>
    match passSpace cs.length cs with
    | [] => if o.outer.isEmpty then some o.trees.reverse else none
    | cs => (o.step cs).bind fun (o, rest) => o.run fuel rest

end Open

/-- The trees of a text, if its brackets match and all of it is tokens. A byte order mark may open
it. -/
def Tree.scan? (cs : List Char) : Option (List Tree) :=
  let cs := (['\ufeff'].isPrefixOf? cs).getD cs
  ({} : Open).run (cs.length + 1) cs

end EndpointDocs.Source

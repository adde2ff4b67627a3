import EndpointDocs.Yaml.Block
import EndpointDocs.Yaml.Directive
import EndpointDocs.Yaml.Flow

namespace EndpointDocs.Yaml

/-- Something that is a key if a colon follows it in the same line. Only when the colon is reached
the token that announces a key is put in front of it. -/
structure Candidate where
  place : Place
  /-- How many tokens stand in front of it. -/
  position : Nat
  /-- Whether it stands where there can only be a key. -/
  isRequired : Bool
  deriving DecidableEq

structure Scan where
  cursor : Cursor
  /-- How many flow collections are open. -/
  flow : Nat := 0
  /-- The indentation of the block collections that are open, the innermost first. -/
  indents : List Nat := []
  /-- Whether a key may stand here. -/
  allowsKey : Bool := true
  /-- The candidate of each flow collection that is open, and of the block around them. -/
  candidates : List (Option Candidate) := [none]
  /-- The tokens so far, backwards. -/
  tokens : List Token := []

namespace Scan

def inFlow (s : Scan) : Bool :=
  0 < s.flow

def column (s : Scan) : Nat :=
  s.cursor.column

def emit (s : Scan) (t : Token) : Scan :=
  { s with tokens := t :: s.tokens }

/-- Puts a token behind the first `position` ones. -/
def insert (s : Scan) (position : Nat) (t : Token) : Scan :=
  let later := s.tokens.length - position
  { s with tokens := s.tokens.take later ++ t :: s.tokens.drop later }

/-- Passes over the characters in front of `rest`. -/
def moveTo (s : Scan) (rest : List Char) : Scan :=
  { s with cursor := s.cursor.moveTo rest }

/-- The indentation of a line behind the indentation of the innermost block. -/
def textIndent (s : Scan) : Nat :=
  match s.indents with
  | [] => 0
  | i :: _ => i + 1

/-- Passes over blanks, comments and breaks. A tab counts as a blank only where no key may stand. -/
def passBlanks (inFlow allowsKey inComment : Bool) (place : Place) : List Char → Bool × Cursor
  | [] => (allowsKey, ⟨place, []⟩)
  | c :: cs =>
    if isBreak c then passBlanks inFlow (allowsKey || !inFlow) false (place.past c) cs
    else if inComment || c = ' ' || (c = '\t' && (inFlow || !allowsKey)) ||
        (c = '\ufeff' && place.column = 0) then
      passBlanks inFlow allowsKey inComment (place.forward 1) cs
    else if c = '#' then passBlanks inFlow allowsKey true (place.forward 1) cs
    else (allowsKey, ⟨place, c :: cs⟩)

def passToToken (s : Scan) : Scan :=
  let (allowsKey, cursor) := passBlanks s.inFlow s.allowsKey false s.cursor.place s.cursor.rest
  { s with allowsKey, cursor }

/-- Gives up the candidates of other lines and those more than 1024 characters back. There is no
result if a key was required. -/
def dropStale (s : Scan) : Option Scan := do
  let place := s.cursor.place
  let isStale (c : Candidate) : Bool :=
    c.place.line < place.line || c.place.index + 1024 < place.index
  if s.candidates.any fun c => c.any fun c => isStale c && c.isRequired then none
  else return { s with candidates := s.candidates.map fun c => c.filter (!isStale ·) }

/-- Gives up the innermost candidate. -/
def dropCandidate (s : Scan) : Option Scan :=
  match s.candidates with
  | [] => some s
  | c :: cs =>
    if c.any (·.isRequired) then none else some { s with candidates := none :: cs }

/-- Takes what comes next as a candidate, where a key may stand. -/
def addCandidate (s : Scan) : Option Scan :=
  if s.allowsKey then do
    let isRequired := !s.inFlow && s.indents.head? = some s.column
    let s ← s.dropCandidate
    let c := ⟨s.cursor.place, s.tokens.length, isRequired⟩
    return { s with candidates := some c :: s.candidates.drop 1 }
  else some s

/-- Closes the blocks that are indented further than `column`, all of them for `none`. -/
def closeBlocks (s : Scan) (column : Option Nat) : Scan :=
  if s.inFlow then s
  else
    let closed := s.indents.takeWhile fun i => column.all (· < i)
    { s with
      indents := s.indents.drop closed.length
      tokens := closed.map (fun _ => Token.blockEnd) ++ s.tokens }

/-- Opens a block behind the first `position` tokens if the column is further in than the innermost
one. -/
def openBlock (s : Scan) (column position : Nat) (t : Token) : Scan :=
  if s.inFlow || s.indents.head?.any (column ≤ ·) then s
  else { s with indents := column :: s.indents }.insert position t

/-- Opens a block at the cursor, where one may start. -/
def startBlock (s : Scan) (t : Token) : Option Scan :=
  if s.inFlow then some s
  else if s.allowsKey then some (s.openBlock s.column s.tokens.length t)
  else none

/-- A directive, or a mark of a document: nothing is open at either. -/
def atMargin (s : Scan) : Option Scan := do
  let s ← (s.closeBlocks none).dropCandidate
  return { s with allowsKey := false }

def directive (s : Scan) (cs : List Char) : Option Scan := do
  let s ← s.atMargin
  let (token, rest) ← readDirective cs
  let rest ← afterComment? rest
  let place := ⟨(s.cursor.moveTo rest).place.index, s.cursor.place.line + 1, 0⟩
  return { s with cursor := ⟨place, rest⟩ }.emit token

def mark (s : Scan) (t : Token) : Option Scan := do
  let s ← s.atMargin
  return (s.moveTo (s.cursor.rest.drop 3)).emit t

def openFlow (s : Scan) (t : Token) (rest : List Char) : Option Scan := do
  let s ← s.addCandidate
  return { s with
    candidates := none :: s.candidates
    flow := s.flow + 1
    allowsKey := true }.moveTo rest |>.emit t

def closeFlow (s : Scan) (t : Token) (rest : List Char) : Option Scan := do
  let s ← s.dropCandidate
  return { s with
    candidates := if s.inFlow then s.candidates.drop 1 else s.candidates
    flow := s.flow - 1
    allowsKey := false }.moveTo rest |>.emit t

def comma (s : Scan) (rest : List Char) : Option Scan := do
  let s ← s.dropCandidate
  return { s with allowsKey := true }.moveTo rest |>.emit .comma

def item (s : Scan) (rest : List Char) : Option Scan := do
  let s ← (← s.startBlock .blockList).dropCandidate
  return { s with allowsKey := true }.moveTo rest |>.emit .item

def key (s : Scan) (rest : List Char) : Option Scan := do
  let s ← (← s.startBlock .blockMap).dropCandidate
  return { s with allowsKey := !s.inFlow }.moveTo rest |>.emit .key

/-- The colon makes a key of the candidate, or else follows a key that was announced. -/
def value (s : Scan) (rest : List Char) : Option Scan :=
  match s.candidates with
  | some c :: others =>
    let s := (s.insert c.position .key).openBlock c.place.column c.position .blockMap
    some ({ s with candidates := none :: others, allowsKey := false }.moveTo rest |>.emit .value)
  | _ => do
    let s ← s.startBlock .blockMap
    return { s with allowsKey := !s.inFlow }.moveTo rest |>.emit .value

/-- A word that may open a key: an anchor, an alias or a tag. -/
def word (s : Scan) (read : Option (Token × List Char)) : Option Scan := do
  let s ← s.addCandidate
  let (token, rest) ← read
  return { s with allowsKey := false }.moveTo rest |>.emit token

def scalar (s : Scan) (text : List Char) (style : Style) (cursor : Cursor) (allowsKey : Bool) :
    Scan :=
  { s with cursor, allowsKey }.emit (.scalar (String.ofList text) style)

def block (s : Scan) (fold : Bool) (rest : List Char) : Option Scan := do
  let s ← s.dropCandidate
  let (text, cursor) ← readBlock fold s.indents.head? (s.cursor.moveTo rest)
  return s.scalar text (if fold then .folded else .literal) cursor true

def quoted (s : Scan) (style : Style) (rest : List Char) : Option Scan := do
  let s ← s.addCandidate
  let read := if style = .single then readSingle else readDouble
  let (text, cursor) ← read [] {} (s.cursor.place.forward 1) rest
  return s.scalar text style cursor false

def plain (s : Scan) : Option Scan := do
  let s ← s.addCandidate
  let p ← readPlain s.inFlow s.textIndent [] {} s.cursor.place s.cursor.rest
  return s.scalar p.text .plain p.cursor p.isBroken

/-- Whether a scalar without quotation marks may start with this. -/
def opensPlain (inFlow : Bool) : List Char → Bool
  | [] => false
  | '-' :: cs => !cs.head?.any isBlank
  | '?' :: cs | ':' :: cs => !inFlow && !isOpen cs
  | c :: _ => !isBlank c && c ∉ ",[]\x7b\x7d#&*!|>'\"%@`".toList

/-- Adds the next token, of which the first character is at the cursor. -/
def next (s : Scan) : Option Scan :=
  let cs := s.cursor.rest
  let isOpenBehind := s.inFlow || isOpen (cs.drop 1)
  if s.column = 0 && cs.head? = some '%' then s.directive (cs.drop 1)
  else if s.column = 0 && isMark cs then
    s.mark (if cs.head? = some '-' then .documentStart else .documentEnd)
  else
    match cs with
    | '[' :: rest => s.openFlow .flowList rest
    | '\x7b' :: rest => s.openFlow .flowMap rest
    | ']' :: rest => s.closeFlow .flowListEnd rest
    | '\x7d' :: rest => s.closeFlow .flowMapEnd rest
    | ',' :: rest => s.comma rest
    | '*' :: rest => s.word ((readName rest).map fun (name, rest) => (.alias name, rest))
    | '&' :: rest => s.word ((readName rest).map fun (name, rest) => (.anchor name, rest))
    | '!' :: _ => s.word (readTag s.inFlow cs)
    | '\'' :: rest => s.quoted .single rest
    | '"' :: rest => s.quoted .double rest
    | c :: rest =>
      if c = '-' && isOpen rest then s.item rest
      else if c = '?' && isOpenBehind then s.key rest
      else if c = ':' && isOpenBehind then s.value rest
      else if c = '|' && !s.inFlow then s.block false rest
      else if c = '>' && !s.inFlow then s.block true rest
      else if opensPlain s.inFlow cs then s.plain
      else none
    | [] => none

/-- All tokens up to the end. Every token takes a character, so the length of the text is fuel
enough. -/
def run (s : Scan) : Nat → Option (List Token)
  | 0 => none
  | fuel + 1 => do
    let s ← s.passToToken.dropStale
    let s := s.closeBlocks (some s.column)
    if s.cursor.rest.isEmpty then
      let s ← (s.closeBlocks none).dropCandidate
      return s.tokens.reverse
    else (← s.next).run fuel

end Scan

/-- The tokens of a text, if it has only characters that are allowed. A byte order mark may open
it. -/
def Token.scan? (text : String) : Option (List Token) :=
  if text.toList.all isAllowed then
    let cs := (['\ufeff'].isPrefixOf? text.toList).getD text.toList
    Scan.run { cursor := { rest := unifyBreaks cs } } (cs.length + 1)
  else none

end EndpointDocs.Yaml

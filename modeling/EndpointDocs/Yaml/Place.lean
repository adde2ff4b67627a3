namespace EndpointDocs.Yaml

def isBreak (c : Char) : Bool :=
  c = '\n' || c = '\r' || c = '\x85' || c = '\u2028' || c = '\u2029'

def isBlank (c : Char) : Bool :=
  c = ' ' || c = '\t'

/-- Whether a blank or a break stands behind a place, or nothing. -/
def isOpen : List Char → Bool
  | [] => true
  | c :: _ => isBlank c || isBreak c

/-- The characters of handles and of the names of anchors. -/
def isWordChar (c : Char) : Bool :=
  ('0' ≤ c && c ≤ '9') || ('a' ≤ c && c ≤ 'z') || ('A' ≤ c && c ≤ 'Z') || c = '_' || c = '-'

/-- The characters that a text may hold at all. -/
def isAllowed (c : Char) : Bool :=
  c = '\t' || c = '\n' || c = '\r' || (' ' ≤ c && c ≤ '~') || c = '\x85' ||
    ('\u00a0' ≤ c && c ≠ '\ufffe' && c ≠ '\uffff')

/-- The text with line feeds for breaks that other characters make. The separators of lines and
paragraphs are breaks of their own and stay. -/
def unifyBreaks : List Char → List Char
  | '\r' :: '\n' :: cs | '\r' :: cs | '\x85' :: cs => '\n' :: unifyBreaks cs
  | c :: cs => c :: unifyBreaks cs
  | [] => []

structure Place where
  index : Nat := 0
  line : Nat := 0
  column : Nat := 0
  deriving DecidableEq

/-- The place behind so many characters of a line. -/
def Place.forward (p : Place) (n : Nat) : Place :=
  { p with index := p.index + n, column := p.column + n }

def Place.past (p : Place) (c : Char) : Place :=
  if isBreak c then ⟨p.index + 1, p.line + 1, 0⟩ else p.forward 1

/-- A place and the text behind it. -/
structure Cursor where
  place : Place := {}
  rest : List Char
  deriving DecidableEq

namespace Cursor

def column (c : Cursor) : Nat :=
  c.place.column

/-- The cursor at a later place of its line, given by what is left of the text there. -/
def moveTo (c : Cursor) (rest : List Char) : Cursor :=
  ⟨c.place.forward (c.rest.length - rest.length), rest⟩

end Cursor

/-- Whether a line that opens with this text marks where a document starts or ends. -/
def isMark : List Char → Bool
  | '-' :: '-' :: '-' :: cs | '.' :: '.' :: '.' :: cs => isOpen cs
  | _ => false

end EndpointDocs.Yaml

import EndpointDocs.Document

namespace EndpointDocs.Json

/-- The low four bits of a number as a digit. -/
def hexDigit (n : Nat) : Char :=
  Char.ofNat (if n % 16 < 10 then 48 + n % 16 else 87 + n % 16)

/-- A character of a text. The quotation mark, the backslash and the control characters are
escaped. -/
def escape (c : Char) : List Char :=
  match c with
  | '"' => ['\\', '"']
  | '\\' => ['\\', '\\']
  | '\x08' => ['\\', 'b']
  | '\t' => ['\\', 't']
  | '\n' => ['\\', 'n']
  | '\x0c' => ['\\', 'f']
  | '\r' => ['\\', 'r']
  | c =>
    if c.toNat < 32 then ['\\', 'u', '0', '0', hexDigit (c.toNat / 16), hexDigit c.toNat] else [c]

def quoted (s : String) : List Char :=
  '"' :: s.toList.flatMap escape ++ ['"']

def newLine (level : Nat) : List Char :=
  '\n' :: List.replicate (2 * level) ' '

mutual

/-- A document at a level, without a line break behind it. -/
def print (level : Nat) : Document → List Char
  | .null => "null".toList
  | .bool true => "true".toList
  | .bool false => "false".toList
  | .text s => quoted s
  | .list [] => ['[', ']']
  | .list (d :: ds) =>
    '[' :: newLine (level + 1) ++ print (level + 1) d ++ printItems (level + 1) ds ++
      newLine level ++ [']']
  | .record [] => ['\x7b', '\x7d']
  | .record (e :: es) =>
    '\x7b' :: newLine (level + 1) ++ printEntry (level + 1) e ++ printEntries (level + 1) es ++
      newLine level ++ ['\x7d']

/-- Further items of a list. -/
def printItems (level : Nat) : List Document → List Char
  | [] => []
  | d :: ds => ',' :: newLine level ++ print level d ++ printItems level ds

def printEntry (level : Nat) : String × Document → List Char
  | (k, d) => quoted k ++ ':' :: ' ' :: print level d

/-- Further entries of a record. -/
def printEntries (level : Nat) : List (String × Document) → List Char
  | [] => []
  | e :: es => ',' :: newLine level ++ printEntry level e ++ printEntries level es

end

/-- One entry a line and two spaces to each level. -/
def render (d : Document) : String :=
  String.ofList (print 0 d)

end EndpointDocs.Json

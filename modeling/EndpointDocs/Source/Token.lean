namespace EndpointDocs.Source

inductive Literal
  | text (value : String)
  | char (value : Char)
  /-- A whole number; its digits are those to base ten. -/
  | integer (digits suffix : String)
  /-- A number with a fraction or an exponent, as written up to the suffix. -/
  | float (digits suffix : String)
  | bool (value : Bool)
  /-- Bytes and texts of other kinds, whose value nothing depends on. -/
  | other
  deriving DecidableEq

inductive Delimiter
  | paren
  | bracket
  | brace
  deriving DecidableEq

/-- A token, or what stands between brackets. -/
inductive Tree
  /-- A word, a keyword or not. -/
  | word (text : String)
  | lifetime (name : String)
  /-- A character of an operator, which is joined to the next one if that follows at once. -/
  | sign (c : Char) (isJoined : Bool)
  | literal (l : Literal)
  | group (d : Delimiter) (inner : List Tree)
  deriving Inhabited

namespace Tree

mutual

/-- The number of tokens. -/
def size : Tree → Nat
  | .group _ inner => sizes inner + 1
  | _ => 1

def sizes : List Tree → Nat
  | [] => 0
  | t :: ts => t.size + sizes ts

end

end Tree

end EndpointDocs.Source

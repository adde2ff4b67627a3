import EndpointDocs.Chars.Category
import EndpointDocs.Node

namespace EndpointDocs.Json

def isSpace (c : Char) : Bool :=
  c = ' ' || c = '\t' || c = '\n' || c = '\r'

def isDigit (c : Char) : Bool :=
  '0' ≤ c && c ≤ '9'

def skip (cs : List Char) : List Char :=
  cs.dropWhile isSpace

/-- The number that four hexadecimal digits write. -/
def fourDigits? (a b c d : Char) : Option Nat :=
  if [a, b, c, d].all fun x => (Chars.hexDigit? x).isSome then
    some (Chars.hexValue [a, b, c, d])
  else none

/-- The characters that a backslash and a letter stand for. -/
def simpleEscape? : Char → Option Char
  | '"' => some '"'
  | '\\' => some '\\'
  | '/' => some '/'
  | 'b' => some '\x08'
  | 'f' => some '\x0c'
  | 'n' => some '\n'
  | 'r' => some '\r'
  | 't' => some '\t'
  | _ => none

/-- The rest of a text, up to the quotation mark, behind the characters of `seen`, which stand
backwards; `none` for those of a text with half a surrogate pair. -/
def readText (seen : Option (List Char)) : List Char → Option (Option String × List Char)
  | '"' :: cs => some (seen.map fun s => String.ofList s.reverse, cs)
  | '\\' :: 'u' :: a :: b :: c :: d :: cs =>
    match fourDigits? a b c d with
    | none => none
    | some n =>
      if 0xd800 ≤ n && n < 0xdc00 then
        match cs with
        | '\\' :: 'u' :: a' :: b' :: c' :: d' :: rest =>
          match fourDigits? a' b' c' d' with
          | none => none
          | some low =>
            if 0xdc00 ≤ low && low < 0xe000 then
              let code := 0x10000 + (n - 0xd800) * 0x400 + (low - 0xdc00)
              readText (seen.map (Char.ofNat code :: ·)) rest
            else readText none rest
        | cs => readText none cs
      else if 0xdc00 ≤ n && n < 0xe000 then readText none cs
      else readText (seen.map (Char.ofNat n :: ·)) cs
  | '\\' :: c :: cs =>
    match simpleEscape? c with
    | none => none
    | some c => readText (seen.map (c :: ·)) cs
  | c :: cs => if c.toNat < 32 then none else readText (seen.map (c :: ·)) cs
  | [] => none

/-- What follows at least one digit. -/
def afterDigits? (cs : List Char) : Option (List Char) :=
  match cs with
  | c :: cs => if isDigit c then some (cs.dropWhile isDigit) else none
  | [] => none

/-- What follows a number. -/
def afterNumber? (cs : List Char) : Option (List Char) := do
  let cs := (['-'].isPrefixOf? cs).getD cs
  let cs ← match cs with
    | '0' :: cs => match cs with
      | c :: _ => if isDigit c then none else some cs
      | [] => some cs
    | cs => afterDigits? cs
  let cs ← match cs with
    | '.' :: cs => afterDigits? cs
    | cs => some cs
  match cs with
  | 'e' :: cs | 'E' :: cs =>
    match cs with
    | '+' :: cs | '-' :: cs => afterDigits? cs
    | cs => afterDigits? cs
  | cs => some cs

mutual

/-- A value and what follows it. Every step takes a character, so the length of the text is fuel
enough. -/
def readValue (fuel : Nat) (cs : List Char) : Option (Node × List Char) :=
  match fuel with
  | 0 => none
  | fuel + 1 =>
    match skip cs with
    | 'n' :: 'u' :: 'l' :: 'l' :: cs => some (.leaf { presence := .nothing }, cs)
    | 't' :: 'r' :: 'u' :: 'e' :: cs => some (.leaf { bool := some true }, cs)
    | 'f' :: 'a' :: 'l' :: 's' :: 'e' :: cs => some (.leaf { bool := some false }, cs)
    | '"' :: cs =>
      match readText (some []) cs with
      | some (text, cs) => some (.leaf { text }, cs)
      | none => none
    | '[' :: cs =>
      match skip cs with
      | ']' :: cs => some (.list [], cs)
      | cs =>
        match readItems fuel cs with
        | some (items, cs) => some (.list items, cs)
        | none => none
    | '\x7b' :: cs =>
      match skip cs with
      | '\x7d' :: cs => some (.map [], cs)
      | cs =>
        match readEntries fuel cs with
        | some (entries, cs) => some (.map entries, cs)
        | none => none
    | cs => (afterNumber? cs).map fun cs => (.leaf {}, cs)

/-- The items of a list up to its end. -/
def readItems (fuel : Nat) (cs : List Char) : Option (List Node × List Char) :=
  match fuel with
  | 0 => none
  | fuel + 1 =>
    match readValue fuel cs with
    | none => none
    | some (item, cs) =>
      match skip cs with
      | ']' :: cs => some ([item], cs)
      | ',' :: cs => (readItems fuel cs).map fun (items, cs) => (item :: items, cs)
      | _ => none

/-- The entries of a record up to its end. -/
def readEntries (fuel : Nat) (cs : List Char) : Option (List (Node × Node) × List Char) :=
  match fuel with
  | 0 => none
  | fuel + 1 =>
    match skip cs with
    | '"' :: cs =>
      match readText (some []) cs with
      | none => none
      | some (key, cs) =>
        match skip cs with
        | ':' :: cs =>
          match readValue fuel cs with
          | none => none
          | some (value, cs) =>
            let entry := (Node.leaf { text := key }, value)
            match skip cs with
            | '\x7d' :: cs => some ([entry], cs)
            | ',' :: cs => (readEntries fuel cs).map fun (es, cs) => (entry :: es, cs)
            | _ => none
        | _ => none
    | _ => none

end

/-- What the text writes, if it is one JSON value. Numbers are checked but stand for nothing that a
record may hold, and so does a text with half a surrogate pair. -/
def parse (text : String) : Option Node :=
  match readValue (2 * text.length + 2) text.toList with
  | some (n, rest) => if skip rest = [] then some n else none
  | none => none

end EndpointDocs.Json

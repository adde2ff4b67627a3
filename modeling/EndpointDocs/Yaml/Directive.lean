import EndpointDocs.Chars.Category
import EndpointDocs.Yaml.Place
import EndpointDocs.Yaml.Token

namespace EndpointDocs.Yaml

/-- The byte that a percent sign and two digits write. -/
def readByte : List Char → Option (Nat × List Char)
  | '%' :: a :: b :: cs =>
    match Chars.hexDigit? a, Chars.hexDigit? b with
    | some a, some b => some (16 * a + b, cs)
    | _, _ => none
  | _ => none

/-- The number of a character of which the first byte has given `code`, with `n` bytes to come. -/
def readFurtherBytes (code : Nat) : Nat → List Char → Option (Nat × List Char)
  | 0, cs => some (code, cs)
  | n + 1, cs => do
    let (b, cs) ← readByte cs
    if b / 64 = 2 then readFurtherBytes (64 * code + b % 64) n cs else none

/-- A character that is written byte by byte. -/
def readBytes (cs : List Char) : Option (Char × List Char) := do
  let (b, cs) ← readByte cs
  let (code, cs) ←
    if b < 0x80 then some (b, cs)
    else if b / 32 = 6 then readFurtherBytes (b % 32) 1 cs
    else if b / 16 = 14 then readFurtherBytes (b % 16) 2 cs
    else if b / 8 = 30 then readFurtherBytes (b % 8) 3 cs
    else none
  return (Char.ofNat code, cs)

def isTagChar (verbatim : Bool) (c : Char) : Bool :=
  isWordChar c || c ∈ ";/?:@&=+$.%!~*'()".toList || (verbatim && c ∈ ",[]".toList)

/-- The characters of a tag, which may be none; `fuel` bounds their number. -/
def readTagChars (verbatim : Bool) (fuel : Nat) (cs : List Char) :
    Option (List Char × List Char) :=
  match fuel, cs with
  | _, [] => some ([], [])
  | 0, cs => some ([], cs)
  | fuel + 1, c :: cs =>
    if !isTagChar verbatim c then some ([], c :: cs)
    else do
      let (d, rest) ← if c = '%' then readBytes (c :: cs) else some (c, cs)
      let (ds, rest) ← readTagChars verbatim fuel rest
      return (d :: ds, rest)

/-- The characters of a tag, of which there has to be one. -/
def readSuffix (verbatim : Bool) (cs : List Char) : Option (List Char × List Char) := do
  let (suffix, rest) ← readTagChars verbatim cs.length cs
  if suffix.isEmpty then none else return (suffix, rest)

/-- Exclamation marks and what stands between them: `!`, `!word` or `!word!`. -/
def readHandle : List Char → Option (List Char × List Char)
  | '!' :: cs =>
    let word := cs.takeWhile isWordChar
    match cs.dropWhile isWordChar with
    | '!' :: rest => some ('!' :: word ++ ['!'], rest)
    | rest => some ('!' :: word, rest)
  | _ => none

/-- Whether a handle is closed by an exclamation mark of its own. -/
def isClosed (handle : List Char) : Bool :=
  1 < handle.length && handle.getLast? = some '!'

/-- A tag without the check of what ends it. -/
def readOpenTag : List Char → Option (Token × List Char)
  | '!' :: '<' :: cs => do
    let (suffix, rest) ← readSuffix true cs
    match rest with
    | '>' :: rest => return (.tag "" (String.ofList suffix), rest)
    | _ => none
  | cs => do
    let (handle, rest) ← readHandle cs
    if isClosed handle then
      let (suffix, rest) ← readSuffix false rest
      return (.tag (String.ofList handle) (String.ofList suffix), rest)
    else
      let (suffix, rest) ← readTagChars false rest.length rest
      match handle.drop 1 ++ suffix with
      | [] => return (.tag "" "!", rest)
      | suffix => return (.tag "!" (String.ofList suffix), rest)

/-- A tag. A blank follows it, or a comma in a flow collection. -/
def readTag (inFlow : Bool) (cs : List Char) : Option (Token × List Char) := do
  let (tag, rest) ← readOpenTag cs
  if isOpen rest || (inFlow && rest.head? = some ',') then return (tag, rest) else none

/-- The name of an anchor behind its sign. -/
def readName (cs : List Char) : Option (String × List Char) :=
  let name := cs.takeWhile isWordChar
  let rest := cs.dropWhile isWordChar
  if name.isEmpty || !(isOpen rest || rest.head?.any (· ∈ "?:,]\x7d%@`".toList)) then none
  else some (String.ofList name, rest)

/-- A number of at most nine digits. -/
def readVersionNumber (cs : List Char) : Option (Nat × List Char) :=
  let isDigit (c : Char) : Bool := '0' ≤ c && c ≤ '9'
  let digits := cs.takeWhile isDigit
  if digits.isEmpty || 9 < digits.length then none
  else some (digits.foldl (fun n c => 10 * n + (c.toNat - 48)) 0, cs.dropWhile isDigit)

/-- A directive behind its percent sign, without the end of its line. -/
def readDirective (cs : List Char) : Option (Token × List Char) :=
  let rest := (cs.dropWhile isWordChar).dropWhile isBlank
  if !isOpen (cs.dropWhile isWordChar) then none
  else if cs.takeWhile isWordChar = "YAML".toList then do
    let (major, rest) ← readVersionNumber rest
    match rest with
    | '.' :: rest =>
      let (minor, rest) ← readVersionNumber rest
      return (.version major minor, rest)
    | _ => none
  else if cs.takeWhile isWordChar = "TAG".toList then do
    let (handle, rest) ← readHandle rest
    if (handle = ['!'] || isClosed handle) && rest.head?.any isBlank then
      let (meaning, rest) ← readSuffix true (rest.dropWhile isBlank)
      if isOpen rest then
        return (.abbreviation (String.ofList handle) (String.ofList meaning), rest)
      else none
    else none
  else none

end EndpointDocs.Yaml

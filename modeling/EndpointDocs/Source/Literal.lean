import EndpointDocs.Chars.Letter
import EndpointDocs.Source.Token

namespace EndpointDocs.Source

/-- The word at the start of a text, which may be empty, and what follows it. -/
def splitWord (cs : List Char) : List Char × List Char :=
  match cs with
  | [] => ([], [])
  | c :: rest =>
    if Chars.isIdentifierStart c then
      (c :: rest.takeWhile Chars.isIdentifierContinue, rest.dropWhile Chars.isIdentifierContinue)
    else ([], cs)

/-- What a text or character consists of, which decides what may be escaped in it. -/
inductive Alphabet
  | unicode
  /-- Bytes, of which those above 127 have to be escaped. -/
  | bytes
  /-- Text that is ended by a zero and so cannot hold one. -/
  | terminated
  deriving DecidableEq

namespace Alphabet

def admits (a : Alphabet) (c : Char) : Bool :=
  match a with
  | .unicode => true
  | .bytes => c.toNat < 128
  | .terminated => c ≠ '\x00'

/-- The character that a backslash and a letter stand for. -/
def letter? (a : Alphabet) : Char → Option Char
  | 'n' => some '\n'
  | 'r' => some '\r'
  | 't' => some '\t'
  | '\\' => some '\\'
  | '\'' => some '\''
  | '"' => some '"'
  | '0' => if a = .terminated then none else some '\x00'
  | _ => none

/-- The character of a number with two digits. -/
def twoDigits? (a : Alphabet) (high low : Char) : Option Char :=
  match Chars.hexDigit? high, Chars.hexDigit? low with
  | some h, some l =>
    let n := 16 * h + l
    match a with
    | .unicode => if n < 128 then some (Char.ofNat n) else none
    | .bytes => some (Char.ofNat n)
    | .terminated => if n = 0 then none else some (Char.ofNat n)
  | _, _ => none

end Alphabet

/-- The number that is written up to a closing brace with at most six digits, among which low lines
may stand. -/
def readScalarValue (n count : Nat) : List Char → Option (Char × List Char)
  | [] => none
  | c :: cs =>
    match Chars.hexDigit? c with
    | some d => if count = 6 then none else readScalarValue (16 * n + d) (count + 1) cs
    | none =>
      if count = 0 then none
      else if c = '_' then readScalarValue n count cs
      else if c = '\x7d' then if h : n.isValidChar then some (Char.ofNatAux n h, cs) else none
      else none

/-- The character that stands for the text behind a backslash. -/
def readEscape (a : Alphabet) : List Char → Option (Char × List Char)
  | 'x' :: high :: low :: cs => (a.twoDigits? high low).map (·, cs)
  | 'u' :: '\x7b' :: cs =>
    if a = .bytes then none
    else (readScalarValue 0 0 cs).filter fun (c, _) => a.admits c
  | c :: cs => (a.letter? c).map (·, cs)
  | [] => none

/-- Whether every carriage return is followed by a line feed. -/
def hasWholeBreaks : List Char → Bool
  | '\r' :: '\n' :: cs => hasWholeBreaks cs
  | '\r' :: _ => false
  | _ :: cs => hasWholeBreaks cs
  | [] => true

/-- A text up to its quotation mark, behind the characters of `seen`, which stand backwards. A
backslash at the end of a line joins it to the next word. The length of the text is fuel enough. -/
def readText (a : Alphabet) (seen : List Char) (fuel : Nat) (cs : List Char) :
    Option (String × List Char) :=
  match fuel, cs with
  | 0, _ | _, [] => none
  | _ + 1, '"' :: cs => some (String.ofList seen.reverse, cs)
  | fuel + 1, '\r' :: cs =>
    match cs with
    | '\n' :: cs => readText a ('\n' :: seen) fuel cs
    | _ => none
  | fuel + 1, '\\' :: c :: cs =>
    if c = '\n' || c = '\r' then
      if hasWholeBreaks ((c :: cs).takeWhile Chars.isBlank) then
        readText a seen fuel (cs.dropWhile Chars.isBlank)
      else none
    else
      match readEscape a (c :: cs) with
      | none => none
      | some (c, cs) => readText a (c :: seen) fuel cs
  | fuel + 1, c :: cs => if a.admits c then readText a (c :: seen) fuel cs else none

/-- A text that ends at a quotation mark and as many number signs as `hashes` holds. -/
def readRawEnd (a : Alphabet) (hashes seen : List Char) : List Char → Option (String × List Char)
  | [] => none
  | c :: cs =>
    if c = '"' && hashes.isPrefixOf cs then
      some (String.ofList seen.reverse, cs.drop hashes.length)
    else if a.admits c then readRawEnd a hashes (c :: seen) cs
    else none

/-- A text without escapes, behind its letters. -/
def readRaw (a : Alphabet) (cs : List Char) : Option (String × List Char) :=
  let hashes := cs.takeWhile (· = '#')
  match cs.dropWhile (· = '#') with
  | '"' :: cs =>
    if 255 < hashes.length then none
    else (readRawEnd a hashes [] cs).filter fun (text, _) => hasWholeBreaks text.toList
  | _ => none

/-- A character and its closing quotation mark. -/
def readChar (a : Alphabet) (cs : List Char) : Option (Char × List Char) := do
  let (c, cs) ← match cs with
    | '\\' :: cs => readEscape a cs
    | c :: cs => if a = .bytes && 128 ≤ c.toNat then none else some (c, cs)
    | [] => none
  match cs with
  | '\'' :: cs => return (c, cs)
  | _ => none

/-- A literal between quotation marks, without the suffix. -/
def readQuoted (cs : List Char) : Option (Literal × List Char) :=
  let text (r : Option (String × List Char)) : Option (Literal × List Char) :=
    r.map fun (s, cs) => (.text s, cs)
  let other {α : Type} (r : Option (α × List Char)) : Option (Literal × List Char) :=
    r.map fun (_, cs) => (.other, cs)
  match cs with
  | '"' :: cs => text (readText .unicode [] (cs.length + 1) cs)
  | 'b' :: '"' :: cs => other (readText .bytes [] (cs.length + 1) cs)
  | 'c' :: '"' :: cs => other (readText .terminated [] (cs.length + 1) cs)
  | 'b' :: 'r' :: cs => other (readRaw .bytes cs)
  | 'c' :: 'r' :: cs => other (readRaw .terminated cs)
  | 'r' :: cs => text (readRaw .unicode cs)
  | 'b' :: '\'' :: cs => other (readChar .bytes cs)
  | '\'' :: cs => (readChar .unicode cs).map fun (c, cs) => (.char c, cs)
  | _ => none

def isDecimalDigit (c : Char) : Bool :=
  '0' ≤ c && c ≤ '9'

def isDecimalOrLine (c : Char) : Bool :=
  isDecimalDigit c || c = '_'

/-- The fraction and what follows it, where a point may open one: it must not be followed by
another point or by a word. -/
def splitFraction : List Char → Option (List Char × List Char)
  | '.' :: cs =>
    match cs with
    | c :: _ =>
      if c = '.' || Chars.isIdentifierStart c then none
      else some ('.' :: cs.takeWhile isDecimalOrLine, cs.dropWhile isDecimalOrLine)
    | [] => some (['.'], [])
  | _ => none

/-- An exponent, in which a digit has to stand. -/
def splitExponent : List Char → Option (List Char × List Char)
  | e :: cs =>
    if e = 'e' || e = 'E' then
      let lines := cs.takeWhile (· = '_')
      let (sign, rest) := match cs.dropWhile (· = '_') with
        | '+' :: rest => (['+'], rest)
        | '-' :: rest => (['-'], rest)
        | rest => ([], rest)
      let digits := rest.takeWhile isDecimalOrLine
      if digits.any isDecimalDigit then
        some ('e' :: lines ++ sign ++ digits, rest.dropWhile isDecimalOrLine)
      else none
    else none
  | [] => none

/-- Digits without the low lines among them and without plus signs. -/
def bareDigits (cs : List Char) : String :=
  String.ofList (cs.filter fun c => c ≠ '_' && c ≠ '+')

/-- The suffix of a number. No other word goes on behind it. -/
def splitSuffix (cs : List Char) : Option (String × List Char) :=
  let (suffix, rest) := splitWord cs
  if rest.head?.any Chars.isIdentifierContinue then none else some (String.ofList suffix, rest)

/-- A number with a fraction, an exponent or both. -/
def readFloat (cs : List Char) : Option (Literal × List Char) :=
  let whole := cs.takeWhile isDecimalOrLine
  let rest := cs.dropWhile isDecimalOrLine
  if !cs.head?.any isDecimalDigit then none
  else
    let (fraction, rest) := (splitFraction rest).getD ([], rest)
    let (exponent, rest) := (splitExponent rest).getD ([], rest)
    if fraction.isEmpty && exponent.isEmpty then none
    else
      (splitSuffix rest).map fun (suffix, rest) =>
        (.float (bareDigits (whole ++ fraction ++ exponent)) suffix, rest)

/-- The base that a number is written to, and its digits. -/
def splitBase : List Char → Nat × List Char
  | '0' :: 'x' :: cs => (16, cs)
  | '0' :: 'o' :: cs => (8, cs)
  | '0' :: 'b' :: cs => (2, cs)
  | cs => (10, cs)

/-- Whether a character goes on with a number to the base: its digits, decimal ones that are none
of its digits as well, and low lines. -/
def isDigitOf (base : Nat) (c : Char) : Bool :=
  isDecimalOrLine c || (base = 16 && (Chars.hexDigit? c).isSome)

/-- A whole number. -/
def readInteger (cs : List Char) : Option (Literal × List Char) :=
  let (base, cs) := splitBase cs
  let digits := cs.takeWhile (isDigitOf base)
  let values := digits.filterMap Chars.hexDigit?
  if values.isEmpty || values.any (base ≤ ·) || (base = 10 && cs.head? = some '_') then none
  else
    let value := values.foldl (fun n d => base * n + d) 0
    (splitSuffix (cs.dropWhile (isDigitOf base))).map fun (suffix, rest) =>
      (.integer (String.ofList (Nat.toDigits 10 value)) suffix, rest)

/-- A literal, with its suffix. -/
def readLiteral (cs : List Char) : Option (Literal × List Char) :=
  match readQuoted cs with
  | some (l, cs) => some (l, (splitWord cs).2)
  | none => (readFloat cs).or (readInteger cs)

end EndpointDocs.Source

import EndpointDocs.Chars.Case.Table
import EndpointDocs.Chars.Letter

namespace EndpointDocs.Chars

/-- Code points that are mapped by one and the same distance. -/
structure ShiftRun where
  first : Nat
  last : Nat
  stride : Nat
  distance : Int

def ShiftRun.read (cs : List Char) : Option ShiftRun :=
  let (first, last, rest) := readSpan cs
  let distance : List Char → Int
    | '~' :: ds => - (hexValue ds : Int)
    | ds => hexValue ds
  match rest with
  | ':' :: ds => some ⟨first, last, 1, distance ds⟩
  | '/' :: ds => some ⟨first, last, 2, distance ds⟩
  | _ => none

def readShifts (text : String) : List ShiftRun :=
  (words text.toList).filterMap ShiftRun.read

/-- The image of `n`, when the run holds it. -/
def ShiftRun.image? (r : ShiftRun) (n : Nat) : Option Nat :=
  if r.first ≤ n ∧ n ≤ r.last ∧ (n - r.first) % r.stride = 0 then
    some ((n : Int) + r.distance).toNat
  else none

/-- The code point that the run maps to `n`. -/
def ShiftRun.source? (r : ShiftRun) (n : Nat) : Option Nat :=
  let source := (n : Int) - r.distance
  if 0 ≤ source ∧ r.image? source.toNat = some n then some source.toNat else none

def lowerShifts : List ShiftRun := readShifts Case.lowerTable

def upperShifts : List ShiftRun := readShifts Case.upperTable

def foldShifts : List ShiftRun := readShifts Case.foldTable

/-- Characters with a longer upper case, and that. -/
def longUppers : List (Nat × List Char) :=
  (words Case.longUpperTable.toList).map fun cs =>
    let (code, _, rest) := readSpan cs
    (code, (rest.drop 1).splitOn ',' |>.map fun ds => Char.ofNat (hexValue ds))

def shift (runs : List ShiftRun) (c : Char) : Char :=
  ((runs.findSome? (·.image? c.toNat)).map Char.ofNat).getD c

/-- The lower case of a character; only the dotted capital I has one of two characters. -/
def toLower (c : Char) : List Char :=
  if c.toNat < 128 then [if 'A' ≤ c && c ≤ 'Z' then Char.ofNat (c.toNat + 32) else c]
  else if c = '\u0130' then ['i', '\u0307']
  else [shift lowerShifts c]

/-- The upper case of a character. -/
def toUpper (c : Char) : List Char :=
  if c.toNat < 128 then [if 'a' ≤ c && c ≤ 'z' then Char.ofNat (c.toNat - 32) else c]
  else (longUppers.lookup c.toNat).getD [shift upperShifts c]

/-- Letters with an optional run of case-ignorable marks between a sigma and its word. -/
def isCaseIgnorable (c : Char) : Bool :=
  match category c with
  | .mn | .me | .cf | .lm | .sk => true
  | _ => c = '\'' || c = '.' || c = ':' || c = '\u00b7' || c = '\u2018' || c = '\u2019' ||
    c = '\u2024' || c = '\u2027' || c = '\u0387' || c = '\u055f' || c = '\u05f4'

def isCased (c : Char) : Bool :=
  isUppercase c || isLowercase c || category c = .lt

/-- Whether a cased letter comes first once case-ignorable characters are passed over. -/
def opensCased (cs : List Char) : Bool :=
  match cs.dropWhile isCaseIgnorable with
  | c :: _ => isCased c
  | [] => false

/-- Lower case of a text in which `seen`, backwards, comes before it. A capital sigma that ends a
word becomes the final small sigma. -/
def lowerAfter (seen : List Char) : List Char → List Char
  | [] => []
  | c :: cs =>
    let image :=
      if c = '\u03a3' then
        [if opensCased seen && !opensCased cs then '\u03c2' else '\u03c3']
      else toLower c
    image ++ lowerAfter (c :: seen) cs

def lowercase (cs : List Char) : List Char :=
  lowerAfter [] cs

/-- ASCII letters in lower case, all else kept. -/
def asciiLower (c : Char) : Char :=
  if 'A' ≤ c && c ≤ 'Z' then Char.ofNat (c.toNat + 32) else c

/-- Simple case folding. -/
def fold (c : Char) : Char :=
  if c.toNat < 128 then asciiLower c else shift foldShifts c

/-- The code points with the same folding as `n`, itself included. -/
def foldClass (n : Nat) : List Nat :=
  let target := (fold (Char.ofNat n)).toNat
  (target :: foldShifts.filterMap (·.source? target)).eraseDups

end EndpointDocs.Chars

import EndpointDocs.Document
import EndpointDocs.Yaml.Place
import EndpointDocs.Yaml.Scalar

namespace EndpointDocs.Yaml

/-- Characters that stand for themselves. All others are escaped. -/
def isPrintable (c : Char) : Bool :=
  c = '\n' || (' ' ≤ c && c ≤ '~') || ('\u00a0' ≤ c && c ≠ '\ufeff' && c ≠ '\ufffe' && c ≠ '\uffff')

/-- Whether the first character, or the three of a document mark, would be taken for a sign. -/
def opensSign : List Char → Bool
  | '-' :: '-' :: '-' :: _ | '.' :: '.' :: '.' :: _ => true
  | c :: cs =>
    c ∈ "#,[]\x7b\x7d&*!|>'\"%@`".toList || ((c = '?' || c = ':' || c = '-') && isOpen cs)
  | [] => false

/-- Whether a colon ends a word behind the first character, or a number sign opens one. -/
def holdsSign : List Char → Bool
  | [] => false
  | c :: cs =>
    match cs with
    | [] => false
    | ':' :: rest => isOpen rest || holdsSign cs
    | '#' :: _ => isOpen [c] || holdsSign cs
    | _ => holdsSign cs

/-- Whether there are two neighbours of these kinds. -/
def hasNeighbours (p q : Char → Bool) : List Char → Bool
  | c :: d :: cs => (p c && q d) || hasNeighbours p q (d :: cs)
  | _ => false

def hasBreak (cs : List Char) : Bool :=
  cs.any isBreak

/-- Whether only escapes can write the text: it has a character that is not printable, or a space
that would be lost in front of a break. -/
def needsEscapes (cs : List Char) : Bool :=
  cs.any (!isPrintable ·) || hasNeighbours (· = ' ') isBreak cs

def endsWith (p : Char → Bool) (cs : List Char) : Bool :=
  cs.getLast?.any p

/-- Whether the text can stand without quotation marks. -/
def allowsPlain (cs : List Char) : Bool :=
  !(needsEscapes cs || hasBreak cs || opensSign cs || holdsSign cs || cs.head?.any (· = ' ') ||
    endsWith (· = ' ') cs)

def allowsSingle (cs : List Char) : Bool :=
  !(needsEscapes cs || hasNeighbours isBreak (· = ' ') cs)

/-- Whether the lines of the text can stand as they are. -/
def allowsLiteral (cs : List Char) : Bool :=
  !(needsEscapes cs || endsWith (· = ' ') cs)

def Style.of (cs : List Char) : Style :=
  if '\n' ∈ cs then if allowsLiteral cs then .literal else .double
  else if isText cs && allowsPlain cs then .plain
  else if allowsSingle cs then .single
  else .double

/-- The letter that stands for a character behind a backslash. -/
def escapeLetter? (c : Char) : Option Char :=
  [('\x00', '0'), ('\x07', 'a'), ('\x08', 'b'), ('\t', 't'), ('\n', 'n'), ('\x0b', 'v'),
    ('\x0c', 'f'), ('\r', 'r'), ('\x1b', 'e'), ('"', '"'), ('\\', '\\'), ('\x85', 'N'),
    ('\u00a0', '_'), ('\u2028', 'L'), ('\u2029', 'P')].lookup c

/-- A number with so many hexadecimal digits. -/
def hexadecimal (places n : Nat) : List Char :=
  let digits := (Nat.toDigits 16 n).map Char.toUpper
  List.replicate (places - digits.length) '0' ++ digits

/-- A character between double quotation marks. -/
def escape (c : Char) : List Char :=
  if isPrintable c && !isBreak c && c ≠ '"' && c ≠ '\\' then [c]
  else
    match escapeLetter? c with
    | some letter => ['\\', letter]
    | none =>
      if c.toNat < 0x100 then '\\' :: 'x' :: hexadecimal 2 c.toNat
      else if c.toNat < 0x10000 then '\\' :: 'u' :: hexadecimal 4 c.toNat
      else '\\' :: 'U' :: hexadecimal 8 c.toNat

def spaces (n : Nat) : List Char :=
  List.replicate n ' '

/-- The text with every line but the first indented that has a character. `fresh` says that a break
stands in front. -/
def indented (indent : Nat) (fresh : Bool) : List Char → List Char
  | [] => []
  | c :: cs =>
    if isBreak c then c :: indented indent true cs
    else if fresh then spaces indent ++ c :: indented indent false cs
    else c :: indented indent false cs

/-- The text between single quotation marks, which are written twice in it. -/
def single (indent : Nat) (cs : List Char) : List Char :=
  let doubled := cs.flatMap fun c => if c = '\'' then ['\'', '\''] else [c]
  '\'' :: indented indent false doubled ++ (if endsWith isBreak cs then spaces indent else []) ++
    ['\'']

def double (cs : List Char) : List Char :=
  '"' :: cs.flatMap escape ++ ['"']

/-- What is said about the lines of a text in front of them: how far they are indented, where they
do not show that, and which of the breaks at the end belong to the text. -/
def literalHints (cs : List Char) : List Char :=
  (if cs.head?.any (fun c => c = ' ' || isBreak c) then ['2'] else []) ++
  (match cs.reverse with
    | [] => ['-']
    | [c] => if isBreak c then ['+'] else ['-']
    | c :: d :: _ => if !isBreak c then ['-'] else if isBreak d then ['+'] else [])

/-- The lines of a text, with a break at the end. -/
def literal (indent : Nat) (cs : List Char) : List Char :=
  '|' :: literalHints cs ++ '\n' :: indented indent true cs ++
    (if endsWith isBreak cs then [] else ['\n'])

/-- A text and the break behind it. Further lines are indented by `indent`. -/
def scalarLine (indent : Nat) (cs : List Char) : List Char :=
  match Style.of cs with
  | .plain => cs ++ ['\n']
  | .single => single indent cs ++ ['\n']
  | .double => double cs ++ ['\n']
  | .literal | .folded => literal indent cs

/-- Whether a text can stand as a key in front of a colon: in one line of at most 128 bytes. -/
def isSimpleKey (key : String) : Bool :=
  !hasBreak key.toList && key.utf8ByteSize ≤ 128

def simpleKey (cs : List Char) : List Char :=
  match Style.of cs with
  | .plain => cs
  | .single => single 0 cs
  | _ => double cs

mutual

/-- A document behind a sign, its further lines indented by `indent`. -/
def print (indent : Nat) : Document → List Char
  | .null => "null\n".toList
  | .bool true => "true\n".toList
  | .bool false => "false\n".toList
  | .text s => scalarLine indent s.toList
  | .list [] => "[]\n".toList
  | .list (d :: ds) => '-' :: ' ' :: print (indent + 2) d ++ printItems indent ds
  | .record [] => "\x7b\x7d\n".toList
  | .record (e :: es) => printEntry indent e ++ printEntries indent es

/-- The items of a list, each on lines of its own. -/
def printItems (indent : Nat) : List Document → List Char
  | [] => []
  | d :: ds => spaces indent ++ '-' :: ' ' :: print (indent + 2) d ++ printItems indent ds

def printEntry (indent : Nat) : String × Document → List Char
  | (k, d) =>
    if isSimpleKey k then simpleKey k.toList ++ ':' :: printValue indent d
    else
      '?' :: ' ' :: scalarLine (indent + 2) k.toList ++ spaces indent ++ ':' :: ' ' ::
        print (indent + 2) d

/-- Entries of a record, each on lines of its own. -/
def printEntries (indent : Nat) : List (String × Document) → List Char
  | [] => []
  | e :: es => spaces indent ++ printEntry indent e ++ printEntries indent es

/-- What follows the colon behind a key. -/
def printValue (indent : Nat) : Document → List Char
  | .null => " null\n".toList
  | .bool true => " true\n".toList
  | .bool false => " false\n".toList
  | .text s => ' ' :: scalarLine (indent + 2) s.toList
  | .list [] => " []\n".toList
  | .list (d :: ds) => '\n' :: printItems indent (d :: ds)
  | .record [] => " \x7b\x7d\n".toList
  | .record (e :: es) => '\n' :: printEntries (indent + 2) (e :: es)

end

/-- Block style: two spaces to each level, the items of a list not indented below its key, and lines
as long as they come. -/
def render (d : Document) : String :=
  String.ofList (print 0 d)

end EndpointDocs.Yaml

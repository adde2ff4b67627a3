import EndpointDocs.Chars.Cut
import EndpointDocs.Pattern
import EndpointDocs.Pattern.Property

namespace EndpointDocs.Pattern

/-- What the letters of `(?...)` switch on and off. -/
structure Flags where
  caseless : Bool := false
  multiLine : Bool := false
  dotAll : Bool := false
  swapGreed : Bool := false
  unicode : Bool := true
  crlf : Bool := false
  spaced : Bool := false

namespace Reader

/-- Something read, how deep its parts are nested, and the characters after it. -/
structure Read (α : Type) where
  value : α
  depth : Nat
  rest : List Char

/-- The deepest nesting that is admitted. -/
def maxDepth : Nat := 250

/-- Drops blanks and comments from `#` to the end of the line. -/
def dropSpace : Bool → List Char → List Char
  | _, [] => []
  | true, c :: cs => dropSpace (c ≠ '\n') cs
  | false, c :: cs =>
    if Chars.isBlank c then dropSpace false cs
    else if c = '#' then dropSpace true cs
    else c :: cs

/-- Skips what the flags let the text be spaced with. -/
def skip (f : Flags) (cs : List Char) : List Char :=
  if f.spaced then dropSpace false cs else cs

/-- Characters with a meaning of their own, which a backslash takes away. -/
def isMeta (c : Char) : Bool :=
  c ∈ ['\\', '.', '+', '*', '?', '(', ')', '|', '[', ']', '\x7b', '\x7d', '^', '$', '#', '&', '-',
    '~']

/-- Other characters that a backslash may stand in front of. -/
def isEscapable (c : Char) : Bool :=
  c.toNat < 128 && !(Chars.isAsciiLetter c || Chars.isAsciiDigit c) && c ≠ '<' && c ≠ '>'

/-- What a single item of a pattern or of a bracketed set stands for. -/
inductive Atom
  | char (c : Char)
  | set (s : CharSet)
  | assertion (a : Assertion)

def charOfCode? (n : Nat) : Option Char :=
  if n < 0xd800 || (0xe000 ≤ n && n < 0x110000) then some (Char.ofNat n) else none

/-- As many hexadecimal digits as asked for. -/
def readDigits (f : Flags) : Nat → List Char → Option (List Char × List Char)
  | 0, cs => some ([], cs)
  | n + 1, c :: cs =>
    if (Chars.hexDigit? c).isSome then
      (readDigits f n (skip f cs)).map fun (ds, rest) => (c :: ds, rest)
    else none
  | _ + 1, [] => none

/-- Hexadecimal digits up to the closing brace. -/
def readBraced (f : Flags) (ds : List Char) : List Char → Option (List Char × List Char)
  | [] => none
  | c :: cs =>
    if c = '\x7d' then some (ds.reverse, skip f cs)
    else if f.spaced && Chars.isBlank c then readBraced f ds cs
    else if (Chars.hexDigit? c).isSome then readBraced f (c :: ds) cs
    else none

/-- A character by its number. Two digits may not name a byte that is no character. -/
def readHex (f : Flags) (count : Nat) (cs : List Char) : Option (Char × List Char) := do
  let (digits, rest) ← match skip f cs with
    | '\x7b' :: cs => readBraced f [] cs
    | cs => (readDigits f count cs).filter fun (ds, _) =>
        f.unicode || count ≠ 2 || Chars.hexValue ds < 128
  guard (digits ≠ [])
  return (← charOfCode? (Chars.hexValue digits), rest)

/-- The text up to the closing brace, without spacing. -/
def readName (f : Flags) (cs : List Char) : Option (List Char × List Char) := do
  let name := cs.takeWhile (· ≠ '\x7d')
  match cs.dropWhile (· ≠ '\x7d') with
  | [] => none
  | _ :: rest => return (if f.spaced then name.filter (! Chars.isBlank ·) else name, rest)

/-- The name and the value around the sign that tells them apart, and whether it negates. -/
def splitProperty : List Char → Option (List Char × List Char × Bool)
  | [] => none
  | '!' :: '=' :: value => some ([], value, true)
  | c :: cs => (splitProperty cs).map fun (name, value, negated) => (c :: name, value, negated)

def splitAtSign (cs : List Char) : Option (List Char × List Char × Bool) :=
  (splitProperty cs).or <|
    ((Chars.cutAtFirst ':' cs).or (Chars.cutAtFirst '=' cs)).map fun (n, v) => (n, v, false)

def caseClosed (f : Flags) (s : CharSet) : CharSet :=
  if f.caseless then if f.unicode then .caseless s else .asciiCaseless s else s

/-- The set itself or all others, closed under case before that. A complement may only be taken
where characters are not read as bytes. -/
def closeAndNegate (f : Flags) (negated : Bool) (s : CharSet) : Option CharSet :=
  if negated then
    if f.unicode then some (.compl (caseClosed f s)) else none
  else some (caseClosed f s)

def readProperty (f : Flags) (negated : Bool) (cs : List Char) : Option (CharSet × List Char) := do
  guard f.unicode
  match skip f cs with
  | [] => none
  | '\x7b' :: cs =>
    let (name, rest) ← readName f cs
    match splitAtSign name with
    | some (name, value, differs) =>
      return (← closeAndNegate f (negated ≠ differs) (← Property.ofNameAndValue? name value), rest)
    | none => return (← closeAndNegate f negated (← Property.ofName? name), rest)
  | '\\' :: _ => none
  | c :: cs => return (← closeAndNegate f negated (← Property.ofName? [c]), skip f cs)

def perlSet (f : Flags) (c : Char) : Option CharSet :=
  let negate (s : CharSet) : Option CharSet := if f.unicode then some (.compl s) else none
  let digits : CharSet := if f.unicode then .digit else .asciiDigit
  let blanks : CharSet := if f.unicode then .blank else .asciiBlank
  let words : CharSet := if f.unicode then .word else .asciiWord
  match c with
  | 'd' => some digits
  | 's' => some blanks
  | 'w' => some words
  | 'D' => negate digits
  | 'S' => negate blanks
  | 'W' => negate words
  | _ => none

/-- What stands in braces after `\b`: the name of an assertion, or a repetition after all. -/
def readBoundary (f : Flags) (word : CharSet) (cs : List Char) :
    Option (Assertion × List Char) :=
  let isNameChar (c : Char) : Bool := Chars.isAsciiLetter c || c = '-'
  match cs with
  | '\x7b' :: inner =>
    match skip f inner with
    | [] => none
    | c :: _ =>
      if isNameChar c then
        let inner := skip f inner
        let text := if f.spaced then inner.filter (! Chars.isBlank ·) else inner
        let named : List (String × Assertion) := [
          ("start", .wordStart word), ("end", .wordEnd word),
          ("start-half", .wordStartHalf word), ("end-half", .wordEndHalf word)]
        match text.dropWhile isNameChar, inner.dropWhile (· ≠ '\x7d') with
        | '\x7d' :: _, _ :: rest =>
          (named.lookup (String.ofList (text.takeWhile isNameChar))).map fun a => (a, rest)
        | _, _ => none
      else some (.wordBoundary word, cs)
  | cs => some (.wordBoundary word, cs)

/-- What follows a backslash. -/
def readEscape (f : Flags) : List Char → Option (Atom × List Char)
  | [] => none
  | c :: cs =>
    let word : CharSet := if f.unicode then .word else .asciiWord
    let char (n : Nat) : Option (Atom × List Char) := some (.char (Char.ofNat n), cs)
    let hex (count : Nat) : Option (Atom × List Char) :=
      (readHex f count cs).map fun (c, rest) => (.char c, rest)
    match c with
    | 'x' => hex 2
    | 'u' => hex 4
    | 'U' => hex 8
    | 'p' => (readProperty f false cs).map fun (s, rest) => (.set s, rest)
    | 'P' => (readProperty f true cs).map fun (s, rest) => (.set s, rest)
    | 'a' => char 7
    | 'f' => char 12
    | 't' => char 9
    | 'n' => char 10
    | 'r' => char 13
    | 'v' => char 11
    | 'A' => some (.assertion .textStart, cs)
    | 'z' => some (.assertion .textEnd, cs)
    | 'b' => (readBoundary f word cs).map fun (a, rest) => (.assertion a, rest)
    | 'B' => some (.assertion (.notWordBoundary word), cs)
    | '<' => some (.assertion (.wordStart word), cs)
    | '>' => some (.assertion (.wordEnd word), cs)
    | c =>
      if isMeta c || isEscapable c then some (.char c, cs)
      else (perlSet f c).map fun s => (.set s, cs)

/-- `[:name:]` or `[:^name:]` behind its first bracket. -/
def readAsciiClass (f : Flags) (cs : List Char) : Option (CharSet × List Char) := do
  let cs ← [':'].isPrefixOf? cs
  let (negated, cs) := match ['^'].isPrefixOf? cs with
    | some cs => (true, cs)
    | none => (false, cs)
  let rest ← [':', ']'].isPrefixOf? (cs.dropWhile (· ≠ ':'))
  let set ← CharSet.ofAsciiName? (cs.takeWhile (· ≠ ':'))
  return (← closeAndNegate f negated set, rest)

/-- One item of a bracketed set. -/
def readSetItem (f : Flags) : List Char → Option (Atom × List Char)
  | [] => none
  | '\\' :: cs => readEscape f cs
  | c :: cs => some (.char c, cs)

/-- A character may stand in a set if it is not one of several bytes where bytes are read. -/
def isSetChar (f : Flags) (c : Char) : Bool :=
  f.unicode || c.toNat < 128

def Atom.set? (f : Flags) : Atom → Option CharSet
  | .char c => if isSetChar f c then some (.single c) else none
  | .set s => some s
  | .assertion _ => none

/-- An item of a bracketed set, or two with a hyphen between that stand for a span. -/
def readSpan (f : Flags) (cs : List Char) : Option (CharSet × List Char) := do
  let (first, cs) ← readSetItem f cs
  let cs := skip f cs
  let isSpan := match cs with
    | '-' :: after => match skip f after with
      | ']' :: _ | '-' :: _ => false
      | _ => true
    | _ => false
  if isSpan then
    let (last, rest) ← readSetItem f (skip f (cs.drop 1))
    match first, last with
    | .char a, .char b =>
      guard (a.toNat ≤ b.toNat && isSetChar f b)
      return (.spans [⟨a.toNat, b.toNat⟩], rest)
    | _, _ => none
  else
    guard (cs ≠ [])
    return (← first.set? f, cs)

inductive SetOperation
  | inter | diff | symmDiff

/-- Joins the left operand, if there is one, with the set read since. -/
def joinSets (f : Flags) (left : Option (SetOperation × CharSet × Nat))
    (items : List (CharSet × Nat)) : CharSet × Nat :=
  let deepest := (items.map Prod.snd).foldl max 0
  let set := CharSet.unionAll (items.map Prod.fst)
  let depth := if items.length < 2 then deepest else deepest + 1
  match left with
  | none => (set, depth)
  | some (op, left, leftDepth) =>
    let a := caseClosed f left
    let b := caseClosed f set
    let joined := match op with
      | .inter => .inter a b
      | .diff => a.diff b
      | .symmDiff => a.symmDiff b
    (joined, max leftDepth depth + 1)

/-- The hyphens, and without them one closing bracket, with which a bracketed set may open as
characters of its own. -/
def readSetStart (f : Flags) (cs : List Char) : List (CharSet × Nat) × List Char :=
  let rec hyphens (items : List (CharSet × Nat)) (fuel : Nat) (cs : List Char) :
      List (CharSet × Nat) × List Char :=
    match fuel, cs with
    | fuel + 1, '-' :: cs => hyphens (items ++ [(.single '-', 0)]) fuel (skip f cs)
    | _, cs => (items, cs)
  match hyphens [] cs.length cs with
  | ([], ']' :: cs) => ([(.single ']', 0)], skip f cs)
  | found => found

/-- A bracketed set behind its opening bracket. -/
def readSet (f : Flags) (fuel : Nat) (cs : List Char) : Option (Read CharSet) :=
  match fuel with
  | 0 => none
  | fuel + 1 =>
    let cs := skip f cs
    let (negated, cs) := match cs with
      | '^' :: cs => (true, skip f cs)
      | cs => (false, cs)
    let (items, cs) := readSetStart f cs
    match readItems f fuel none items cs with
    | none => none
    | some set => (closeAndNegate f negated set.value).map fun s => ⟨s, set.depth + 1, set.rest⟩
where
  /-- The items up to the closing bracket. -/
  readItems (f : Flags) (fuel : Nat) (left : Option (SetOperation × CharSet × Nat))
      (items : List (CharSet × Nat)) (cs : List Char) : Option (Read CharSet) :=
    match fuel with
    | 0 => none
    | fuel + 1 =>
      let operation (op : SetOperation) (cs : List Char) : Option (Read CharSet) :=
        let (set, depth) := joinSets f left items
        readItems f fuel (some (op, set, depth)) [] cs
      match skip f cs with
      | [] => none
      | '[' :: cs =>
        match readAsciiClass f cs with
        | some (set, rest) => readItems f fuel left (items ++ [(set, 0)]) rest
        | none =>
          match readSet f fuel cs with
          | none => none
          | some set => readItems f fuel left (items ++ [(set.value, set.depth)]) set.rest
      | ']' :: cs =>
        let (set, depth) := joinSets f left items
        some ⟨set, depth, cs⟩
      | '&' :: '&' :: cs => operation .inter cs
      | '-' :: '-' :: cs => operation .diff cs
      | '~' :: '~' :: cs => operation .symmDiff cs
      | cs =>
        match readSpan f cs with
        | none => none
        | some (set, rest) => readItems f fuel left (items ++ [(set, 0)]) rest

/-- A decimal number with spacing around it, none if there are no digits. -/
def readDecimal (f : Flags) (cs : List Char) : Option Nat × List Char :=
  let cs := cs.dropWhile Chars.isBlank
  let isPart (c : Char) : Bool := Chars.isAsciiDigit c || (f.spaced && Chars.isBlank c)
  let digits := (cs.takeWhile isPart).filter Chars.isAsciiDigit
  let rest := skip f ((cs.dropWhile isPart).dropWhile Chars.isBlank)
  let value := digits.foldl (fun n c => 10 * n + (c.toNat - 48)) 0
  (if digits = [] || value ≥ Nat.pow 2 32 then none else some value, rest)

/-- The bounds of a counted repetition behind the opening brace. -/
def readCounts (f : Flags) (cs : List Char) : Option (Nat × Option Nat × List Char) := do
  let (low, cs) := readDecimal f (skip f cs)
  let low ← low
  match cs with
  | '\x7d' :: rest => return (low, some low, rest)
  | ',' :: cs =>
    match skip f cs with
    | '\x7d' :: rest => return (low, none, rest)
    | cs =>
      let (high, cs) := readDecimal f cs
      let high ← high
      let rest ← ['\x7d'].isPrefixOf? cs
      guard (low ≤ high)
      return (low, some high, rest)
  | _ => none

/-- The name of a group behind the opening angle bracket. -/
def readGroupName (cs : List Char) : Option (List Char × List Char) := do
  let name := cs.takeWhile (· ≠ '>')
  let rest ← ['>'].isPrefixOf? (cs.dropWhile (· ≠ '>'))
  match name with
  | [] => none
  | c :: others =>
    guard (c = '_' || Chars.isAlphabetic c)
    guard (others.all fun c => c ∈ ['_', '.', '[', ']'] || Chars.isAlphanumeric c)
    return (name, rest)

/-- The letters of `(?...)` up to the sign behind them, each at most once. -/
def readFlags (f : Flags) (negated : Bool) (seen : List Char) :
    List Char → Option (Flags × List Char × List Char)
  | [] => none
  | c :: cs =>
    if c = ':' || c = ')' then
      if seen.head? = some '-' then none else some (f, seen, c :: cs)
    else if c ∈ seen then none
    else
      let seen := c :: seen
      let on := !negated
      match c with
      | '-' => readFlags f true seen cs
      | 'i' => readFlags { f with caseless := on } negated seen cs
      | 'm' => readFlags { f with multiLine := on } negated seen cs
      | 's' => readFlags { f with dotAll := on } negated seen cs
      | 'U' => readFlags { f with swapGreed := on } negated seen cs
      | 'u' => readFlags { f with unicode := on } negated seen cs
      | 'R' => readFlags { f with crlf := on } negated seen cs
      | 'x' => readFlags { f with spaced := on } negated seen cs
      | _ => none

/-- What a round bracket opens: flags for what follows, or a group with flags and maybe a name. -/
inductive Opening
  | flags (f : Flags)
  | group (f : Flags) (name : Option (List Char))

def readOpening (f : Flags) (cs : List Char) : Option (Opening × List Char) :=
  let named (cs : List Char) : Option (Opening × List Char) :=
    (readGroupName cs).map fun (name, rest) => (.group f (some name), rest)
  match skip f cs with
  | '?' :: '=' :: _ | '?' :: '!' :: _ | '?' :: '<' :: '=' :: _ | '?' :: '<' :: '!' :: _ => none
  | '?' :: 'P' :: '<' :: cs => named cs
  | '?' :: '<' :: cs => named cs
  | '?' :: cs =>
    match readFlags f false [] cs with
    | some (f, seen, ')' :: rest) => if seen = [] then none else some (.flags f, rest)
    | some (f, _, _ :: rest) => some (.group f none, rest)
    | _ => none
  | cs => some (.group f none, cs)

def anyChar (f : Flags) : Option Pattern :=
  if !f.unicode then none
  else if f.dotAll then some (.chars .all)
  else if f.crlf then some (.chars (.compl (.spans [⟨10, 10⟩, ⟨13, 13⟩])))
  else some (.chars (.compl (.spans [⟨10, 10⟩])))

def lineStart (f : Flags) : Assertion :=
  if f.multiLine then if f.crlf then .crlfStart else .lineStart else .textStart

def lineEnd (f : Flags) : Assertion :=
  if f.multiLine then if f.crlf then .crlfEnd else .lineEnd else .textEnd

/-- Items side by side; a flag setting is an item without a pattern. -/
def sequence (items : List (Option Pattern × Nat)) : Pattern × Nat :=
  let deepest := (items.map Prod.snd).foldl max 0
  let pattern := (items.filterMap Prod.fst).foldr seqAfter .epsilon
  (pattern, if items.length < 2 then deepest else deepest + 1)

def alternatives (options : List (Pattern × Nat)) : Pattern × Nat :=
  let deepest := (options.map Prod.snd).foldl max 0
  match options with
  | [] => (.epsilon, 0)
  | [p] => p
  | p :: ps => (ps.foldl (fun p q => .alt p q.1) p.1, deepest + 1)

/-- An item of a pattern as a pattern. -/
def Atom.pattern (f : Flags) : Atom → Pattern
  | .char c => .chars (caseClosed f (.single c))
  | .set s => .chars s
  | .assertion a => .assertion a

/-- Where reading stands within a group. -/
structure State where
  flags : Flags
  /-- The names of the groups so far. -/
  names : List (List Char)
  options : List (Pattern × Nat) := []
  items : List (Option Pattern × Nat) := []

/-- A pattern, up to the bracket that closes its group or, outside groups, up to the end, and the
names of all groups so far. -/
def readPattern (fuel : Nat) (inGroup : Bool) (s : State) (cs : List Char) :
    Option (Read (Pattern × List (List Char))) :=
  match fuel with
  | 0 => none
  | fuel + 1 =>
    let f := s.flags
    let closed (rest : List Char) : Option (Read (Pattern × List (List Char))) :=
      let (p, depth) := alternatives (s.options ++ [sequence s.items])
      if depth ≤ maxDepth then some ⟨(p, s.names), depth, rest⟩ else none
    let push (p : Pattern) (depth : Nat) (rest : List Char) :=
      readPattern fuel inGroup { s with items := s.items ++ [(some p, depth)] } rest
    let repeated (low : Nat) (high : Option Nat) (rest : List Char) :=
      match s.items.getLast? with
      | some (some p, depth) =>
        let rest := (['?'].isPrefixOf? rest).getD rest
        readPattern fuel inGroup
          { s with items := s.items.dropLast ++ [(some (.repeated p low high), depth + 1)] } rest
      | _ => none
    match skip f cs with
    | [] => if inGroup then none else closed []
    | ')' :: cs => if inGroup then closed cs else none
    | '|' :: cs =>
      readPattern fuel inGroup
        { s with options := s.options ++ [sequence s.items], items := [] } cs
    | '(' :: cs =>
      match readOpening f cs with
      | none => none
      | some (.flags f, rest) =>
        readPattern fuel inGroup { s with flags := f, items := s.items ++ [(none, 0)] } rest
      | some (.group f name, rest) =>
        let names := name.toList ++ s.names
        if name.any (· ∈ s.names) then none
        else
          match readPattern fuel true { flags := f, names } rest with
          | none => none
          | some ⟨(p, names), depth, rest⟩ =>
            readPattern fuel inGroup
              { s with names, items := s.items ++ [(some p, depth + 1)] } rest
    | '[' :: cs =>
      match readSet f fuel cs with
      | none => none
      | some set => push (.chars set.value) set.depth set.rest
    | '?' :: cs => repeated 0 (some 1) cs
    | '*' :: cs => repeated 0 none cs
    | '+' :: cs => repeated 1 none cs
    | '\x7b' :: cs =>
      match readCounts f cs with
      | none => none
      | some (low, high, rest) => repeated low high (skip f rest)
    | '\\' :: cs =>
      match readEscape f cs with
      | none => none
      | some (atom, rest) => push (atom.pattern f) 0 rest
    | '.' :: cs => (anyChar f).bind fun p => push p 0 cs
    | '^' :: cs => push (.assertion (lineStart f)) 0 cs
    | '$' :: cs => push (.assertion (lineEnd f)) 0 cs
    | c :: cs => push (Atom.pattern f (.char c)) 0 cs

end Reader

/-- The pattern that the text writes, if it writes one. There is no looking around and no referring
back. Every reading step takes at least one character, so the length of the text bounds the number
of steps. -/
def ofText? (text : String) : Option Pattern :=
  (Reader.readPattern (2 * text.length + 2) false { flags := {}, names := [] } text.toList).map
    fun r => r.value.1

end EndpointDocs.Pattern

import EndpointDocs.Chars.Category
import EndpointDocs.Yaml.Gap

namespace EndpointDocs.Yaml

/-- What ends a scalar without quotation marks in front of the text. -/
def endsPlain (inFlow : Bool) : List Char → Bool
  | [] => true
  | c :: cs => (c = ':' && isOpen cs) || (inFlow && c ∈ ",[]\x7b\x7d".toList)

/-- Whether a colon stands where it can neither end a scalar nor belong to it. -/
def isStrayColon (inFlow : Bool) : List Char → Bool
  | ':' :: c :: _ => inFlow && c ∈ ",?[]\x7b\x7d".toList
  | _ => false

/-- A scalar without quotation marks that has been read. -/
structure PlainScalar where
  text : List Char
  cursor : Cursor
  /-- Whether a line has ended behind it. -/
  isBroken : Bool

/-- Reads on after `seen`, which stands backwards, and a gap. The lines of the scalar are indented
by `indent`, outside of flow collections. -/
def readPlain (inFlow : Bool) (indent : Nat) (seen : List Char) (gap : Gap) (place : Place) :
    List Char → Option PlainScalar
  | [] => some ⟨seen.reverse, ⟨place, []⟩, gap.isBroken⟩
  | c :: cs =>
    if isBreak c then readPlain inFlow indent seen (gap.addBreak c) (place.past c) cs
    else if isBlank c then
      if c = '\t' && gap.isBroken && place.column < indent then none
      else readPlain inFlow indent seen (gap.addBlank c) (place.past c) cs
    else if (gap.isBroken && !inFlow && place.column < indent) ||
        (place.column = 0 && isMark (c :: cs)) || (!gap.isEmpty && c = '#') then
      some ⟨seen.reverse, ⟨place, c :: cs⟩, gap.isBroken⟩
    else if isStrayColon inFlow (c :: cs) then none
    else if endsPlain inFlow (c :: cs) then
      some ⟨seen.reverse, ⟨place, c :: cs⟩, gap.isBroken⟩
    else readPlain inFlow indent (c :: (gap.text.reverse ++ seen)) {} (place.past c) cs

/-- A scalar between single quotation marks, of which two stand for one. -/
def readSingle (seen : List Char) (gap : Gap) (place : Place) :
    List Char → Option (List Char × Cursor)
  | [] => none
  | c :: cs =>
    if isBreak c then readSingle seen (gap.addBreak c) (place.past c) cs
    else if isBlank c then readSingle seen (gap.addBlank c) (place.past c) cs
    else if place.column = 0 && isMark (c :: cs) then none
    else
      let seen := gap.text.reverse ++ seen
      match c, cs with
      | '\'', '\'' :: cs => readSingle ('\'' :: seen) {} (place.forward 2) cs
      | '\'', cs => some (seen.reverse, ⟨place.forward 1, cs⟩)
      | c, cs => readSingle (c :: seen) {} (place.forward 1) cs

/-- The characters that a backslash and a letter stand for. -/
def letterEscape? (c : Char) : Option Char :=
  [('0', '\x00'), ('a', '\x07'), ('b', '\x08'), ('t', '\t'), ('\t', '\t'), ('n', '\n'),
    ('v', '\x0b'), ('f', '\x0c'), ('r', '\r'), ('e', '\x1b'), (' ', ' '), ('"', '"'), ('/', '/'),
    ('\\', '\\'), ('N', '\x85'), ('_', '\u00a0'), ('L', '\u2028'), ('P', '\u2029')].lookup c

/-- How many digits follow a letter that announces the number of a character. -/
def digitCount? : Char → Option Nat
  | 'x' => some 2
  | 'u' => some 4
  | 'U' => some 8
  | _ => none

/-- The character of the number that the digits write. -/
def numbered? (digits : List Char) : Option Char :=
  if digits.all fun d => (Chars.hexDigit? d).isSome then
    let n := Chars.hexValue digits
    if h : n.isValidChar then some (Char.ofNatAux n h) else none
  else none

/-- The character that stands for the text behind a backslash, and what follows it. -/
def readEscape (c : Char) (cs : List Char) : Option (Char × List Char) :=
  match digitCount? c with
  | none => (letterEscape? c).map (·, cs)
  | some n =>
    if (cs.take n).length = n then (numbered? (cs.take n)).map (·, cs.drop n) else none

theorem length_of_readEscape {c d : Char} {cs rest : List Char}
    (h : readEscape c cs = some (d, rest)) : rest.length ≤ cs.length := by
  unfold readEscape at h
  split at h
  · obtain ⟨_, _, h⟩ := Option.map_eq_some_iff.1 h
    simp only [Prod.mk.injEq] at h
    exact Nat.le_of_eq (congrArg List.length h.2.symm)
  · split at h
    · obtain ⟨_, _, h⟩ := Option.map_eq_some_iff.1 h
      simp only [Prod.mk.injEq] at h
      rw [← h.2, List.length_drop]
      omega
    · cases h

/-- A scalar between double quotation marks. -/
def readDouble (seen : List Char) (gap : Gap) (place : Place) (cs : List Char) :
    Option (List Char × Cursor) :=
  match cs with
  | [] => none
  | c :: cs =>
    if isBreak c then readDouble seen (gap.addBreak c) (place.past c) cs
    else if isBlank c then readDouble seen (gap.addBlank c) (place.past c) cs
    else if place.column = 0 && isMark (c :: cs) then none
    else if c = '"' then some ((gap.text.reverse ++ seen).reverse, ⟨place.forward 1, cs⟩)
    else if c = '\\' then
      match cs with
      | [] => none
      | d :: cs =>
        if isBreak d then
          readDouble (gap.text.reverse ++ seen) .escaped ((place.forward 1).past d) cs
        else
          match _h : readEscape d cs with
          | none => none
          | some (e, rest) =>
            have := length_of_readEscape _h
            readDouble (e :: (gap.text.reverse ++ seen)) {}
              (place.forward (2 + (cs.length - rest.length))) rest
    else readDouble (c :: (gap.text.reverse ++ seen)) {} (place.forward 1) cs
termination_by cs.length

end EndpointDocs.Yaml

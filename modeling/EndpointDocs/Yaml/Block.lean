import EndpointDocs.Yaml.Scalar
import EndpointDocs.Yaml.Place

namespace EndpointDocs.Yaml

/-- What becomes of the breaks at the end of a block: all but the first are cut off, all of them
are, or none. -/
inductive Chomping
  | clip | strip | keep
  deriving DecidableEq

/-- The header of a block. The indentation is counted from that of the surroundings. -/
structure BlockHeader where
  chomping : Chomping := .clip
  indentation : Option Nat := none

namespace BlockHeader

def chomping? : Char → Option Chomping
  | '+' => some .keep
  | '-' => some .strip
  | _ => none

def indentation? (c : Char) : Option Nat :=
  if '1' ≤ c && c ≤ '9' then some (c.toNat - 48) else none

/-- The two parts of a header come in either order, and each may be missing. -/
def read (cs : List Char) : BlockHeader × List Char :=
  match cs with
  | [] => ({}, [])
  | c :: cs =>
    match chomping? c, indentation? c with
    | some chomping, _ =>
      match cs with
      | [] => ({ chomping }, [])
      | d :: rest =>
        match indentation? d with
        | some n => ({ chomping, indentation := some n }, rest)
        | none => ({ chomping }, d :: rest)
    | none, some n =>
      match cs with
      | [] => ({ indentation := some n }, [])
      | d :: rest =>
        match chomping? d with
        | some chomping => ({ chomping, indentation := some n }, rest)
        | none => ({ indentation := some n }, d :: rest)
    | none, none => ({}, c :: cs)

end BlockHeader

/-- What is left of a line that holds at most blanks and a comment; the break is passed over. -/
def afterComment? (cs : List Char) : Option (List Char) :=
  match cs.dropWhile isBlank with
  | '#' :: cs => some ((cs.dropWhile (! isBreak ·)).drop 1)
  | [] => some []
  | c :: cs => if isBreak c then some cs else none

/-- Empty lines in front of a line, or of the end. -/
structure EmptyLines where
  /-- The widest indentation among them and of the line. -/
  widest : Nat
  breaks : List Char
  cursor : Cursor

/-- Reads empty lines and the indentation behind them, which is at most `indent` where that is
known. A tab must not stand in it. -/
def readEmptyLines (indent : Option Nat) (widest : Nat) (breaks : List Char) (place : Place) :
    List Char → Option EmptyLines
  | [] => some ⟨max widest place.column, breaks.reverse, ⟨place, []⟩⟩
  | c :: cs =>
    if c = ' ' && indent.all (place.column < ·) then
      readEmptyLines indent widest breaks (place.forward 1) cs
    else if c = '\t' && indent.all (place.column < ·) then none
    else if isBreak c then
      readEmptyLines indent (max widest place.column) (c :: breaks) (place.past c) cs
    else some ⟨max widest place.column, breaks.reverse, ⟨place, c :: cs⟩⟩

/-- The lines of a block so far. -/
structure BlockLines where
  /-- The text, backwards, without the breaks at its end. -/
  seen : List Char := []
  /-- The break at the end of the last line. -/
  last : List Char := []
  /-- The breaks of the empty lines behind it. -/
  empty : List Char := []
  /-- Whether the last line opens with a blank. -/
  isIndented : Bool := false

/-- Adds a line. Where lines are folded, a single break between two that open with no blank becomes
a space, and the first of several is left out. -/
def BlockLines.add (b : BlockLines) (fold : Bool) (line last empty : List Char) : BlockLines :=
  let isIndented := line.head?.any isBlank
  let between :=
    if fold && b.last = ['\n'] && !b.isIndented && !isIndented then
      if b.empty.isEmpty then [' '] else b.empty
    else b.last ++ b.empty
  ⟨line.reverse ++ between.reverse ++ b.seen, last, empty, isIndented⟩

def BlockLines.text (b : BlockLines) (chomping : Chomping) : List Char :=
  b.seen.reverse ++
    match chomping with
    | .strip => []
    | .clip => b.last
    | .keep => b.last ++ b.empty

/-- Reads the lines that are indented by `indent`. Each takes a character, so the length of the text
is fuel enough. -/
def readLines (fold : Bool) (indent : Nat) (b : BlockLines) (c : Cursor) (fuel : Nat) :
    Option (BlockLines × Cursor) :=
  match fuel with
  | 0 => some (b, c)
  | fuel + 1 =>
    if c.column = indent && !c.rest.isEmpty then
      let line := c.rest.takeWhile (! isBreak ·)
      let place := c.place.forward line.length
      match c.rest.dropWhile (! isBreak ·) with
      | [] => some (b.add fold line [] [], ⟨place, []⟩)
      | last :: rest => do
        let e ← readEmptyLines (some indent) 0 [] (place.past last) rest
        readLines fold indent (b.add fold line [last] e.breaks) e.cursor fuel
    else some (b, c)

/-- Reads a block behind its sign. `outer` is the indentation of the surroundings, if there is any;
the block's own is given or found at its first line. -/
def readBlock (fold : Bool) (outer : Option Nat) (c : Cursor) : Option (List Char × Cursor) := do
  let (header, rest) := BlockHeader.read c.rest
  let rest ← afterComment? rest
  let place := ⟨(c.moveTo rest).place.index, c.place.line + 1, 0⟩
  let indent := header.indentation.map fun n => outer.getD 0 + n
  let e ← readEmptyLines indent 0 [] place rest
  let least := (outer.map (· + 1)).getD 1
  let indent := indent.getD (max e.widest (max least 1))
  let (b, c) ← readLines fold indent { empty := e.breaks } e.cursor (rest.length + 1)
  return (b.text header.chomping, c)

end EndpointDocs.Yaml

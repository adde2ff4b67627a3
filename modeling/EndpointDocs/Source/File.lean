import EndpointDocs.Source.Level
import EndpointDocs.Source.Scan

namespace EndpointDocs.Source

namespace Reader

/-- Runs a reader over all of a text. -/
def run? {α : Type} (p : Below → Reader α) (cs : List Char) : Option (α × List Item) := do
  let ts ← Tree.scan? cs
  let (a, r) ← p (Below.of ts) { tokens := ts }
  if r.tokens.isEmpty then return (a, r.found) else none

end Reader

/-- The items of a file that declare types, and the number of all its items. -/
structure File where
  items : List Item
  count : Nat

/-- The text without a byte order mark and without a first line that names an interpreter. -/
def dropInterpreter (cs : List Char) : List Char :=
  let cs := (['\ufeff'].isPrefixOf? cs).getD cs
  match cs with
  | '#' :: '!' :: rest =>
    if (passSpace rest.length rest).head? = some '[' then cs else cs.dropWhile (· ≠ '\n')
  | _ => cs

def File.parse? (text : String) : Option File := do
  let readAll (b : Below) : Reader Nat := do
    discard (Reader.innerAttributes b)
    return (← Reader.manyIf (!·.isEmpty) (Reader.item b)).length
  let (count, items) ← Reader.run? readAll (dropInterpreter text.toList)
  return { items, count }

def TypeRef.parse? (text : String) : Option TypeRef :=
  (Reader.run? (Reader.type · true) text.toList).map (·.1)

/-- The segments of a path as a type, which may have parentheses for arguments. -/
def Segment.parsePath? (text : String) : Option (List Segment) :=
  (Reader.run? Reader.typePath text.toList).map fun ((_, _, segments), _) => segments

end EndpointDocs.Source

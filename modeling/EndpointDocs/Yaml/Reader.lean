import EndpointDocs.Yaml.Scan
import EndpointDocs.Yaml.Tree

namespace EndpointDocs.Yaml

namespace Tree

mutual

/-- A tree with what its aliases stand for put in, by number. -/
def expand (targets : List (Nat × Node)) : Tree → Node
  | .leaf l => .leaf l
  | .list items => .list (expandItems targets items)
  | .map entries => .map (expandEntries targets entries)
  | .alias number => (targets.lookup number).getD (.leaf {})
  | .anchored _ t => expand targets t

def expandItems (targets : List (Nat × Node)) : List Tree → List Node
  | [] => []
  | t :: ts => expand targets t :: expandItems targets ts

def expandEntries (targets : List (Nat × Node)) : List (Tree × Tree) → List (Node × Node)
  | [] => []
  | e :: es => expandEntry targets e :: expandEntries targets es

def expandEntry (targets : List (Nat × Node)) : Tree × Tree → Node × Node
  | (k, v) => (expand targets k, expand targets v)

end

mutual

/-- The anchored parts, in the order in which they start. -/
def parts : Tree → List (Nat × Tree)
  | .leaf _ | .alias _ => []
  | .list items => partsOfItems items
  | .map entries => partsOfEntries entries
  | .anchored number t => (number, t) :: t.parts

def partsOfItems : List Tree → List (Nat × Tree)
  | [] => []
  | t :: ts => t.parts ++ partsOfItems ts

def partsOfEntries : List (Tree × Tree) → List (Nat × Tree)
  | [] => []
  | e :: es => partsOfEntry e ++ partsOfEntries es

def partsOfEntry : Tree × Tree → List (Nat × Tree)
  | (k, v) => k.parts ++ v.parts

end

/-- What the numbers stand for where aliases are followed so many levels deep. -/
def targets (parts : List (Nat × Tree)) : Nat → List (Nat × Node)
  | 0 => []
  | levels + 1 =>
    let deeper := targets parts levels
    parts.map fun (number, t) => (number, t.expand deeper)

end Tree

/-- The number of levels to which aliases are followed. No record has as many. -/
def depth : Nat := 128

/-- What the text writes, if it is one document. Of parts that are anchored under one number the
last one counts. An alias stands for what is anchored, also within the anchored part itself, so that
following aliases need not end; they are followed as deep as `depth` says. -/
def parse (text : String) : Option Node := do
  let t ← Compose.document? (← Token.scan? text)
  return t.expand (Tree.targets t.parts.reverse depth)

end EndpointDocs.Yaml

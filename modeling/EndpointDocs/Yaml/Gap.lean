import EndpointDocs.Yaml.Place

namespace EndpointDocs.Yaml

/-- A gap between the words of a scalar that may run over several lines. Blanks within a line are
kept; at a single break the lines are joined by a space, and of several breaks all but the first are
kept. -/
structure Gap where
  /-- Whether a line has ended in the gap. -/
  isBroken : Bool := false
  /-- The blanks in front of a break, backwards. -/
  blanks : List Char := []
  first : Option Char := none
  /-- The breaks behind the first, backwards. -/
  others : List Char := []
  deriving DecidableEq

namespace Gap

/-- The gap at an escaped break, which is not itself part of the text. -/
def escaped : Gap :=
  { isBroken := true }

def isEmpty (g : Gap) : Bool :=
  !g.isBroken && g.blanks.isEmpty

/-- Blanks at the start of a line do not count. -/
def addBlank (g : Gap) (c : Char) : Gap :=
  if g.isBroken then g else { g with blanks := c :: g.blanks }

/-- Blanks at the end of a line do not count either. -/
def addBreak (g : Gap) (c : Char) : Gap :=
  if g.isBroken then { g with others := c :: g.others }
  else { isBroken := true, first := some c }

/-- What the gap contributes to the text. -/
def text (g : Gap) : List Char :=
  if g.isBroken then
    match g.first, g.others with
    | some '\n', [] => [' ']
    | some '\n', others => others.reverse
    | first, others => first.toList ++ others.reverse
  else g.blanks.reverse

end Gap

end EndpointDocs.Yaml

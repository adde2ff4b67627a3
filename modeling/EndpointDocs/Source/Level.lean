import EndpointDocs.Source.Definition
import EndpointDocs.Source.Statement

namespace EndpointDocs.Source.Below

/-- Nothing stands deeper. -/
def nothing : Below where
  type _ := Reader.fail
  expression _ := Reader.fail
  unary _ := Reader.fail
  early := Reader.fail
  binding _ := Reader.fail
  statements := Reader.fail
  item := Reader.fail

/-- The readers of one level more. -/
def raise (b : Below) : Below where
  type := Reader.type b
  expression := Reader.expression b
  unary := Reader.unary b
  early := Reader.earlyExpression b
  binding := Reader.binding b
  statements := Reader.statements b
  item := Reader.item b

/-- Readers that go down far enough for the trees. None goes down more than two levels before it takes
a token, so twice the number of tokens is enough. -/
def of (ts : List Tree) : Below :=
  Nat.repeat raise (2 * Tree.sizes ts + 2) nothing

end EndpointDocs.Source.Below

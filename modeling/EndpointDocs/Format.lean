import EndpointDocs.Json.Printer
import EndpointDocs.Json.Reader
import EndpointDocs.Yaml.Printer
import EndpointDocs.Yaml.Reader

namespace EndpointDocs

/-- The formats in which documents are written and read. -/
inductive Format
  | yaml
  | json
  deriving DecidableEq

namespace Format

def all : List Format :=
  [.yaml, .json]

/-- The name of a format, which is also what its files' names end in. -/
def name : Format → String
  | .yaml => "yaml"
  | .json => "json"

def render : Format → Document → String
  | .yaml => Yaml.render
  | .json => Json.render

def parse : Format → String → Option Node
  | .yaml => Yaml.parse
  | .json => Json.parse

end Format

end EndpointDocs

import EndpointDocs.Disk
import EndpointDocs.Failure
import EndpointDocs.Record.Write

namespace EndpointDocs.Publication

/-- Characters that are kept in the names of files. -/
def isKept (c : Char) : Bool :=
  c.isAlphanum || c = '-'

/-- Characters that are not kept become a low line, a row of them one together. -/
def squeeze (isBehindLine : Bool) : List Char → List Char
  | [] => []
  | c :: cs =>
    if isKept c then c :: squeeze false cs
    else if isBehindLine then squeeze true cs
    else '_' :: squeeze true cs

def dropLastLine (cs : List Char) : List Char :=
  if cs.getLast? = some '_' then cs.dropLast else cs

/-- A text as a part of the name of a file. -/
def fileWord (text : String) : String :=
  String.ofList (dropLastLine (squeeze false (Chars.trim text.toList)))

/-- The directory of a category. -/
def directory (category : Option String) : String :=
  let word := (category.map fileWord).getD ""
  if word = "" then "default" else word

def fileName (format : Format) (e : Endpoint) : String :=
  e.method.name ++ fileWord e.path ++ "." ++ format.name

/-- Where an endpoint is published. -/
def documentPath (root : String) (format : Format) (e : Endpoint) : String :=
  Path.join (Path.join root (directory e.category)) (fileName format e)

/-- What has become of a batch of endpoints. -/
structure Report where
  /-- Where endpoints have been published. -/
  published : List String := []
  /-- The keys of endpoints that have not, with the reasons. -/
  failures : List (String × String) := []

namespace Report

def isSuccess (r : Report) : Bool :=
  r.failures.isEmpty

def total (r : Report) : Nat :=
  r.published.length + r.failures.length

end Report

def publish (root : String) (format : Format) (d : Disk) (e : Endpoint) : Except Failure Disk :=
  let path := documentPath root format e
  match d.write path (format.render e.write) with
  | .ok d => return d
  | .error o => throw (.publication path (Failure.access o.message).message)

/-- Publishes endpoints one after the other. One that cannot be published does not keep the others
from it. -/
def publishAll (root : String) (format : Format) (d : Disk) (es : List Endpoint) : Report × Disk :=
  es.foldl
    (fun (r, d) e =>
      match publish root format d e with
      | .ok d => ({ r with published := r.published ++ [documentPath root format e] }, d)
      | .error f => ({ r with failures := r.failures ++ [(e.key, f.message)] }, d))
    ({}, d)

end EndpointDocs.Publication

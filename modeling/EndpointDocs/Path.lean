import EndpointDocs.Chars.Case
import EndpointDocs.Chars.Cut
import EndpointDocs.Format

namespace EndpointDocs

/-- The names on the way to a file or directory, from the top down. Where the way starts at the very
top, the first of them is `/`. -/
abbrev Place := List String

namespace Path

def isAbsolute (path : String) : Bool :=
  path.toList.head? = some '/'

/-- The path of what has the name in the directory that a path leads to. A name that starts at the
top leads there from everywhere. -/
def join (path name : String) : String :=
  if isAbsolute name then name
  else if path = "" || path.toList.getLast? = some '/' then path ++ name
  else path ++ "/" ++ name

/-- The names in a path, with the marks for the same directory and the one above. -/
def parts (path : String) : List String :=
  ((path.toList.splitOn '/').map String.ofList).filter (· ≠ "")

/-- The last name of a path, if it is that of a file or directory. -/
def fileName? (path : String) : Option String :=
  ((parts path).filter (· ≠ ".")).getLast?.filter (· ≠ "..")

/-- What stands behind the last point of a name, if something stands before it. -/
def extensionOf? (name : String) : Option String :=
  match Chars.beforeLast '.' name.toList with
  | none | some [] => none
  | some _ => (Chars.afterLast? ['.'] name.toList).map String.ofList

/-- The format of a file by its name: what is not marked as JSON is YAML. -/
def format (path : String) : Format :=
  let letters := ((fileName? path).bind extensionOf?).map fun e => e.toList.map Chars.asciiLower
  if letters = some "json".toList then .json else .yaml

end Path

namespace Place

/-- The directory above. -/
def above : Place → Place
  | [] => [".."]
  | ["/"] => ["/"]
  | p => if p.getLast? = some ".." then p ++ [".."] else p.dropLast

def step (p : Place) (part : String) : Place :=
  if part = "." then p else if part = ".." then p.above else p ++ [part]

def start (path : String) : Place :=
  if Path.isAbsolute path then ["/"] else []

/-- Where a path leads to. -/
def ofPath (path : String) : Place :=
  (Path.parts path).foldl step (start path)

/-- Whether one place lies below another one. -/
def isBelow (p q : Place) : Bool :=
  q.isPrefixOf p && p ≠ q

end Place

end EndpointDocs

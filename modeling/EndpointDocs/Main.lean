import EndpointDocs.CommandLine.Run

namespace EndpointDocs.Program

/-- What a file holds, if it can be read. -/
def textOf? (path : String) : IO (Option String) := do
  try
    return some (← IO.FS.readFile path)
  catch _ => return none

/-- Adds the file or the directory at a path, without what lies below. -/
def addPath (d : Disk) (path : String) : IO Disk := do
  let p := Place.ofPath path
  let there := (← IO.currentDir) / path
  if ← there.isDir then return { d with directories := p :: d.directories }
  else
    match ← textOf? path with
    | some text => return { d with files := Disk.put p text d.files }
    | none => return d

/-- Adds all that lies below a directory, files with their texts if these are asked for. -/
def addBelow (d : Disk) (path : String) (needsText : String → Bool) : IO Disk := do
  let top := (← IO.currentDir) / path
  if !(← top.isDir) then return d
  let found ← top.walkDir fun p => return !Source.isLeftOut (p.fileName.getD "")
  found.foldlM (fun d p => do
    let rest := String.ofList (p.toString.toList.drop top.toString.length)
    let place := Place.ofPath path ++ Path.parts rest
    if ← p.isDir then return { d with directories := place :: d.directories }
    else if needsText rest then
      match ← textOf? p.toString with
      | some text => return { d with files := Disk.put place text d.files }
      | none => return d
    else return { d with files := Disk.put place "" d.files }) d

/-- The directories above a path, the path itself among them. -/
def waysTo (path : String) : List String :=
  (Path.parts path).foldl (fun ways part => ways ++ [Path.join (ways.getLast?.getD "") part])
    (if Path.isAbsolute path then ["/"] else [])

/-- What the arguments name, as far as a run depends on it. -/
def disk (a : CommandLine.Arguments) : IO Disk := do
  let named := a.catalog.toList ++ a.settings.toList ++ a.project.toList
  let targets := (a.output.toList ++ a.dump.toList ++ a.publication.toList).flatMap waysTo
  let mut d ← (named ++ targets).foldlM addPath {}
  if a.catalog.isNone then
    for path in a.project do
      d ← addBelow d path fun rest => Path.extensionOf? rest = some "rs"
  for path in a.publication do
    d ← addBelow d path fun _ => false
  return d

def pathTo : Place → String
  | "/" :: names => "/" ++ Text.join "/" names
  | names => Text.join "/" names

/-- Stores the files that have been written. -/
def store (before after : Disk) : IO Unit := do
  for (p, text) in after.files do
    if before.textAt? p ≠ some text then
      if p.dropLast ≠ [] then IO.FS.createDirAll (pathTo p.dropLast)
      IO.FS.writeFile (pathTo p) text

def usage : String :=
  "Usage: endpoint-docs [OPTIONS] <PROJECT_PATH>\n\n" ++
  "      --catalog <FILE>       Read types from a dump and not from sources\n" ++
  "  -c, --config <FILE>        Settings (JSON or YAML)\n" ++
  "  -f, --format <FORMAT>      yaml or json\n" ++
  "  -o, --output <FILE>        Write the documentation to a file\n" ++
  "      --publish-dir <DIR>    Also publish one document per endpoint\n" ++
  "      --dump-catalog <FILE>  Write the types of the project as a dump\n" ++
  "  -v, --verbose              Say more\n" ++
  "  -h, --help                 Show this\n" ++
  "  -V, --version              Show the version"

def refuse : CommandLine.Refusal → IO UInt32
  | .help => do
    IO.println usage
    return 0
  | .version => do
    IO.println "endpoint-docs 0.1.0"
    return 0
  | _ => do
    IO.eprintln usage
    return 2

/-- What the arguments name is read first, then the run takes place on that, and what it has written
is stored. -/
def run (arguments : List String) : IO UInt32 := do
  match CommandLine.Arguments.parse arguments with
  | .error r => refuse r
  | .ok a =>
    let before ← disk a
    let outcome := CommandLine.run before a
    store before outcome.disk
    IO.print outcome.output
    match outcome.failure with
    | none => return 0
    | some message =>
      IO.eprintln ("Error: " ++ message)
      return 1

end EndpointDocs.Program

def main (arguments : List String) : IO UInt32 :=
  EndpointDocs.Program.run arguments

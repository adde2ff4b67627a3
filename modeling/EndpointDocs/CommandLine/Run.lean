import EndpointDocs.CommandLine.Arguments
import EndpointDocs.Documentation
import EndpointDocs.Loading
import EndpointDocs.Publication
import EndpointDocs.Source.Folder

namespace EndpointDocs.CommandLine

/-- The files as they are by now, and what has been printed. -/
structure Session where
  disk : Disk
  output : String := ""

/-- What is done in a session, up to the first failure. -/
abbrev Task := ExceptT String (StateM Session)

/-- What has become of a run. -/
structure Outcome where
  disk : Disk
  output : String
  failure : Option String

/-- What is wrong with the files that the arguments name. -/
def Arguments.fault? (a : Arguments) (d : Disk) : Option String :=
  let catalog := a.catalog.filter (!d.isFile ·)
  let project := if a.catalog.isSome then none else a.project
  let missing := project.filter fun p => !d.isFile p && !d.isDirectory p
  let settings := a.settings.filter (!d.isFile ·)
  (catalog.map ("Catalog file does not exist: " ++ ·)).or <|
    (missing.map ("Project path does not exist: " ++ ·)).or <|
      ((project.filter d.isFile).map ("Project path is not a directory: " ++ ·)).or <|
        settings.map ("Config file does not exist: " ++ ·)

namespace Task

def disk : Task Disk :=
  return (← get).disk

/-- Goes on with a result, or fails with what is said of the failure. -/
def orElse {ε α : Type} (r : Except ε α) (message : ε → String) : Task α :=
  match r with
  | .ok a => return a
  | .error e => throw (message e)

def write (path text : String) : Task Unit := do
  let d ← orElse ((← disk).write path text) fun o => (Failure.access o.message).message
  modify ({ · with disk := d })

def printLine (text : String) : Task Unit :=
  modify fun s => { s with output := s.output ++ text ++ "\n" }

def settings (a : Arguments) : Task Settings := do
  match a.settings with
  | none => return {}
  | some path =>
    orElse (Settings.load (← disk) path) fun _ => "Failed to load config: " ++ path

def catalog (a : Arguments) : Task Catalog := do
  match a.catalog, a.project with
  | some path, _ =>
    orElse (Catalog.load (← disk) path) fun _ => "Failed to load catalog: " ++ path
  | none, some path =>
    return (← orElse (Source.Folder.load (← disk) path) Source.FolderFailure.message).catalog
  | none, none => throw "A project path or --catalog is required"

def endpoints (catalog : Catalog) (settings : Settings) : Task (List Endpoint) :=
  match Documentation.ofProject (Project.of catalog settings) [] with
  | some (summary, _) => return summary.endpoints
  | none => throw "The types are nested without end"

/-- Publishes all endpoints, and fails only then if some could not be published. -/
def publish (root : String) (format : Format) (es : List Endpoint) : Task Unit := do
  let (report, d) := Publication.publishAll root format (← disk) es
  modify ({ · with disk := d })
  let count := report.failures.length
  if 0 < count then
    throw (String.ofList (Nat.toDigits 10 count) ++ " api(s) could not be published")

def document (a : Arguments) : Task Unit := do
  let settings ← settings a
  let catalog ← catalog a
  if let some path := a.dump then
    write path (a.format.render (TypeDecl.writeAll catalog.projectTypes))
  let es ← endpoints catalog settings
  let text := a.format.render (.list (es.map Endpoint.write))
  match a.output with
  | some path => write path text
  | none => printLine text
  if let some root := a.publication then publish root a.format es

end Task

/-- Runs the program on files: a project or a catalog is documented, and the documentation is
written, printed and published. -/
def run (d : Disk) (a : Arguments) : Outcome :=
  match a.fault? d with
  | some message => { disk := d, output := "", failure := some message }
  | none =>
    match (Task.document a).run { disk := d } with
    | (.ok (), s) => { disk := s.disk, output := s.output, failure := none }
    | (.error message, s) => { disk := s.disk, output := s.output, failure := some message }

end EndpointDocs.CommandLine

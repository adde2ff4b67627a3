import EndpointDocs.Disk
import EndpointDocs.Source.Declare

namespace EndpointDocs.Source

/-- Whether a file or directory is left out, by its name. -/
def isLeftOut (name : String) : Bool :=
  name.toList.head? = some '.' || name = "target"

/-- Whether the names on the way to a file make it a source file. -/
def isSource (names : List String) : Bool :=
  !names.any isLeftOut && (names.getLast?.bind Path.extensionOf?) = some "rs"

/-- Why a folder is no project. -/
inductive FolderFailure
  | notDirectory (path : String)
  | noSources (path : String)
  | noneReadable
  deriving DecidableEq

def FolderFailure.message : FolderFailure → String
  | .notDirectory path => "Not a directory: " ++ path
  | .noSources path => "No Rust files found in " ++ path
  | .noneReadable => "No files could be parsed successfully"

/-- The paths of the source files below a directory, with their texts, in order. -/
def filesIn (d : Disk) (path : String) : Except FolderFailure (List (String × String)) :=
  match (d.place? path).filter d.isDirectoryAt with
  | none => throw (.notDirectory path)
  | some place =>
    return ((d.below place).filter fun (names, _) => isSource names).map fun (names, text) =>
      (names.foldl Path.join path, text)

/-- Why a file gives no items. -/
inductive FileFailure
  | unreadable (path : String)
  | invalid (path : String)
  deriving DecidableEq

def FileFailure.message : FileFailure → String
  | .unreadable path => "Failed to read file: " ++ path
  | .invalid path => "Failed to parse Rust syntax in file: " ++ path

def File.ofText (path text : String) : Except FileFailure File :=
  match File.parse? text with
  | some f => .ok f
  | none => .error (.invalid path)

def File.load (d : Disk) (path : String) : Except FileFailure File :=
  match d.text? path with
  | some text => File.ofText path text
  | none => .error (.unreadable path)

/-- What has been found in a folder. -/
structure Folder where
  catalog : Catalog
  /-- The number of source files. -/
  scanned : Nat
  /-- The number of those that could be read. -/
  parsed : Nat
  warnings : List String

namespace Folder

def ofResults (results : List (Except FileFailure File)) : Except FolderFailure Folder :=
  let files := results.filterMap fun r => r.toOption
  let failures := results.filterMap fun r =>
    match r with
    | .ok _ => none
    | .error e => some e.message
  if files.isEmpty then throw .noneReadable
  else return {
    catalog := catalogOf files
    scanned := results.length
    parsed := files.length
    warnings := failures }

def load (d : Disk) (path : String) : Except FolderFailure Folder := do
  let sources ← filesIn d path
  if sources.isEmpty then throw (.noSources path)
  else ofResults (sources.map fun (path, text) => File.ofText path text)

end Folder

end EndpointDocs.Source

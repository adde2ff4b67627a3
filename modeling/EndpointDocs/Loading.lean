import EndpointDocs.Catalog.Library
import EndpointDocs.Disk
import EndpointDocs.Failure
import EndpointDocs.Record.Read

namespace EndpointDocs

/-- A file that is not there, as it is reported. -/
def Failure.missing : Failure :=
  .access "No such file or directory (os error 2)"

namespace Settings

/-- The settings that a text writes. A blank text is YAML for what holds without any. -/
def parse? (format : Format) (text : String) : Option Settings :=
  if format = .yaml && Text.trim text = "" then some {}
  else (format.parse text).bind Settings.read?

def load (d : Disk) (path : String) : Except Failure Settings :=
  match d.text? path with
  | none => throw .missing
  | some text =>
    match parse? (Path.format path) text with
    | none => throw (.settings path "no settings")
    | some s => return s

end Settings

namespace Catalog

/-- The catalog of a dump, with the types of the library. -/
def load (d : Disk) (path : String) : Except Failure Catalog :=
  match d.text? path with
  | none => throw .missing
  | some text =>
    match ((Path.format path).parse text).bind TypeDecl.readAll? with
    | none => throw (.parse path "no types")
    | some ts => return ofProject ts

end Catalog

end EndpointDocs

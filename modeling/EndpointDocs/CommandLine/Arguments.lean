import EndpointDocs.Format

namespace EndpointDocs.CommandLine

/-- What a value is given for. -/
inductive Parameter
  | project
  | catalog
  | settings
  | format
  | output
  | publication
  | dump
  deriving DecidableEq

/-- Options without a value. -/
inductive Switch
  | verbose
  | help
  | version
  deriving DecidableEq

inductive Choice
  | parameter (p : Parameter)
  | switch (s : Switch)

/-- Why arguments are not run. -/
inductive Refusal
  | help
  | version
  | unknownArgument
  | invalidValue
  | surplusValue
  | repeatedArgument
  | missingArgument
  deriving DecidableEq

structure Arguments where
  project : Option String := none
  catalog : Option String := none
  settings : Option String := none
  format : Format := .yaml
  output : Option String := none
  publication : Option String := none
  dump : Option String := none
  isVerbose : Bool := false
  deriving DecidableEq

def longNames : List (String × Choice) :=
  [("catalog", .parameter .catalog), ("config", .parameter .settings),
    ("format", .parameter .format), ("output", .parameter .output),
    ("publish-dir", .parameter .publication), ("dump-catalog", .parameter .dump),
    ("verbose", .switch .verbose), ("help", .switch .help), ("version", .switch .version)]

def shortNames : List (Char × Choice) :=
  [('c', .parameter .settings), ('f', .parameter .format), ('o', .parameter .output),
    ('v', .switch .verbose), ('h', .switch .help), ('V', .switch .version)]

/-- What has been read. -/
structure Parsing where
  given : List (Parameter × String) := []
  isVerbose : Bool := false
  /-- A parameter whose value, if it has one by now, is not yet taken. -/
  pending : Option (Parameter × Option String) := none
  /-- Whether the value of an option comes next. -/
  awaitsValue : Bool := false
  /-- Whether the project has had its place. -/
  hasProject : Bool := false
  /-- Whether no options follow. -/
  isPlain : Bool := false

namespace Parsing

abbrev Step := Except Refusal Parsing

/-- Whether a value can be one of the parameter. -/
def admits : Parameter → String → Bool
  | .format, value => Format.all.any (·.name = value)
  | _, value => value ≠ ""

/-- Takes a value, which no parameter has twice. -/
def take (s : Parsing) (p : Parameter) (value : String) : Step :=
  if s.given.any (·.1 = p) then throw .repeatedArgument
  else if !admits p value then throw .invalidValue
  else return { s with given := s.given ++ [(p, value)] }

/-- Takes the value that is pending. -/
def settle (s : Parsing) : Step :=
  match s.pending with
  | none => return s
  | some (_, none) => throw .invalidValue
  | some (p, some value) => take { s with pending := none } p value

def applySwitch (s : Parsing) : Switch → Step
  | .help => throw .help
  | .version => throw .version
  | .verbose =>
    if s.isVerbose then throw .repeatedArgument
    else return { s with isVerbose := true, awaitsValue := false }

/-- An option with the value that is attached to it, if one is. -/
def option (s : Parsing) (p : Parameter) (value : Option String) : Step := do
  let s ← s.settle
  match value with
  | some value => return { ← s.take p value with awaitsValue := false }
  | none => return { s with pending := some (p, none), awaitsValue := true }

def unknown (_ : Parsing) : Step :=
  throw .unknownArgument

/-- An option behind two dashes. -/
def long (s : Parsing) (cs : List Char) : Step :=
  let name := String.ofList (cs.takeWhile (· ≠ '='))
  let value := match cs.dropWhile (· ≠ '=') with
    | [] => none
    | _ :: value => some (String.ofList value)
  match longNames.lookup name, value with
  | none, _ => s.unknown
  | some (.parameter p), value => s.option p value
  | some (.switch _), some _ => throw .surplusValue
  | some (.switch w), none => do (← s.settle).applySwitch w

/-- Options behind one dash. One with a value takes all that follows. -/
def short (s : Parsing) : List Char → Step
  | [] => return s
  | c :: cs =>
    match shortNames.lookup c with
    | none => s.unknown
    | some (.switch w) => do ((← (← s.settle).applySwitch w)).short cs
    | some (.parameter p) =>
      match cs with
      | [] => s.option p none
      | '=' :: value => s.option p (some (String.ofList value))
      | value => s.option p (some (String.ofList value))

/-- The project, which is the only value that belongs to no option. -/
def plain (s : Parsing) (value : String) : Step := do
  if s.hasProject then s.unknown
  else
    let s ← s.settle
    return { s with
      pending := some (.project, some value), hasProject := true, awaitsValue := false }

/-- Reads an argument. -/
def step (s : Parsing) (argument : String) : Step :=
  if s.isPlain then s.plain argument
  else
    match argument.toList with
    | ['-', '-'] => return { s with isPlain := true }
    | '-' :: '-' :: cs => s.long cs
    | '-' :: c :: cs => s.short (c :: cs)
    | _ =>
      match s.awaitsValue, s.pending with
      | true, some (p, _) =>
        return { s with pending := some (p, some argument), awaitsValue := false }
      | _, _ => s.plain argument

def value? (s : Parsing) (p : Parameter) : Option String :=
  s.given.lookup p

/-- The arguments that have been read. A project or a catalog has to be among them. -/
def finish (s : Parsing) : Except Refusal Arguments := do
  let s ← s.settle
  if (s.value? .project).isNone && (s.value? .catalog).isNone then throw .missingArgument
  else
    return {
      project := s.value? .project
      catalog := s.value? .catalog
      settings := s.value? .settings
      format := ((s.value? .format).bind fun n => Format.all.find? (·.name = n)).getD .yaml
      output := s.value? .output
      publication := s.value? .publication
      dump := s.value? .dump
      isVerbose := s.isVerbose }

end Parsing

/-- Options stand before or behind the project, their values behind them or behind an equals sign,
and short ones may share one dash. -/
def Arguments.parse (arguments : List String) : Except Refusal Arguments := do
  (← arguments.foldlM Parsing.step {}).finish

end EndpointDocs.CommandLine

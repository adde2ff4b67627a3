import EndpointDocs.Settings
import EndpointDocs.Pattern.Reader

namespace EndpointDocs

/-- Something that was passed over, for the user to know. -/
structure Warning where
  title : String
  message : String
  deriving DecidableEq

/-- A mock rule that can be applied. -/
structure Mock where
  dataType : Option DataType
  pattern : Pattern
  mock : String

/-- The rule in applicable form, or what is wrong with it. -/
def MockRule.read (r : MockRule) : Except Warning Mock :=
  let withType (t : Option DataType) : Except Warning Mock :=
    match Pattern.ofText? r.pattern with
    | some p => .ok ⟨t, p, r.mock⟩
    | none => .error ⟨"Invalid mock rule", r.pattern ++ ": regex parse error"⟩
  match Text.contentOf? r.typeLabel with
  | none => withType none
  | some label =>
    match DataType.ofLabel? label with
    | some t => withType (some t)
    | none => .error ⟨"Invalid mock rule", "unknown type '" ++ label ++ "'"⟩

namespace Mock

/-- The rules that can be applied. -/
def ofSettings (s : Settings) : List Mock :=
  s.mockRules.filterMap fun r => r.read.toOption

/-- What is wrong with the other rules. -/
def warnings (s : Settings) : List Warning :=
  s.mockRules.filterMap fun r =>
    match r.read with
    | .error w => some w
    | .ok _ => none

def fits (m : Mock) (s : Schema) : Bool :=
  m.dataType.all (· = s.dataType) && m.pattern.finds s.name

/-- The mock that the type, the date format and the known values of a property suggest. -/
def byType (s : Schema) : Option String :=
  match s.dataType with
  | .boolean => some "@boolean"
  | .integer => some "@integer"
  | .number => some "@float"
  | .string =>
    if s.dateFormat.isSome then some "@datetime"
    else
      match s.values.getD [] with
      | [] => some "@string"
      | values =>
        let quoted := values.map fun v => "\"" ++ v.value ++ "\""
        some ("@pick([" ++ Text.join "," quoted ++ "])")
  | .file | .array | .object => none

/-- The mock for a property: what its comment says, or else, where mocks are enabled, what the
first fitting rule says or the type suggests. -/
def choose (enabled : Bool) (rules : List Mock) (s : Schema) (said : Option String) :
    Option String :=
  match Text.contentOf? said with
  | some mock => some mock
  | none =>
    if enabled then
      match rules.find? (·.fits s) with
      | some rule => some rule.mock
      | none => byType s
    else none

end Mock

end EndpointDocs

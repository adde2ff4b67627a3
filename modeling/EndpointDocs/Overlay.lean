import EndpointDocs.Settings

namespace EndpointDocs

/-- The content of the correction, if it has any. -/
def correctText (found correction : Option String) : Option String :=
  (Text.contentOf? correction).or found

/-- A correction that is set and has content counts, everything else stays as it was found. -/
def Schema.overlay (s : Schema) (o : FieldOverride) : Schema :=
  let s := match o.dataType with
    | none => s
    | some t => s.setType t
  { s with
    name := (Text.contentOf? o.name).getD s.name
    description := correctText s.description o.description
    required := o.required.getD s.required
    deprecated := o.deprecated.getD s.deprecated
    default := correctText s.default o.default
    sample := correctText s.sample o.sample
    mock := correctText s.mock o.mock
    dateFormat := correctText s.dateFormat o.dateFormat }

def Endpoint.overlay (e : Endpoint) (o : EndpointOverride) : Endpoint :=
  { e with
    category := correctText e.category o.category
    summary := correctText e.summary o.summary
    description := correctText e.description o.description
    deprecated := o.deprecated.getD e.deprecated
    tags := match o.tags.filterMap Text.content? with
      | [] => e.tags
      | tags => tags.eraseDups }

/-- Lays the correction over the endpoint that the settings hold for it. -/
def Endpoint.corrected (e : Endpoint) (settings : Settings) : Endpoint :=
  match settings.endpointOverride? e.method e.path with
  | none => e
  | some o => e.overlay o

end EndpointDocs

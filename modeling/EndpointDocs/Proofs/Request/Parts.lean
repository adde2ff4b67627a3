import EndpointDocs.Proofs.Resolution.Termination
import EndpointDocs.Proofs.Resolution.Warnings

namespace EndpointDocs.Request

open Noting

variable {p : Project} {doc : DocComment} {m : MethodDecl} {method : HttpMethod}
  {param : ParameterDecl} {ps : List ParameterDecl} {s : Schema}

/-- The place that the annotations of a parameter give it. -/
def place? (param : ParameterDecl) : Option Location :=
  (placement? param).map Prod.fst

/-- Whether the framework provides the parameter, which no annotation places. -/
def isProvided (p : Project) (param : ParameterDecl) : Bool :=
  (place? param).isNone && p.catalog.matchesAny p.settings.ignoredParameterTypes param.typeText

def inForm (s : Schema) : Bool :=
  s.location = some .form

/-- The request with further entries, each among those of its kind. -/
def add (r : Request) (entries : List Schema) : Request :=
  { r with
    parameters := r.parameters ++ entries.filter (!inForm ·)
    formFields := r.formFields ++ entries.filter inForm }

theorem add_nil (r : Request) : r.add [] = r := by
  simp [add]

theorem add_add (r : Request) (entries more : List Schema) :
    (r.add entries).add more = r.add (entries ++ more) := by
  simp [add]

/-- What a parameter of a schema contributes outside of the body. -/
def entriesFor (p : Project) (doc : DocComment) (method : HttpMethod) (param : ParameterDecl)
    (s : Schema) : List Schema :=
  let location := locate (place? param) s method
  if s.isObject && (location = .query || location = .form) then
    s.children.map fun child => { child with location := some location }
  else [describe p doc param ((placement? param).map Prod.snd) location s]

/-- The body that a parameter of a schema makes. -/
def bodyFor (p : Project) (doc : DocComment) (param : ParameterDecl) (s : Schema) : Schema :=
  { s with
    description :=
      Remarks.describeWithValues (Remarks.parameterDescription? param doc) s.values }.stampDate
    p param.typeText param.annotations .body

/-- The schema of a parameter that travels in this way, `none` inside for no value. -/
def schemaOf? (p : Project) (carrier : Carrier) (param : ParameterDecl) : Option (Option Schema) :=
  (Schema.resolve p ⟨.request, carrier⟩ [] param.typeText).given?

/-- What a parameter contributes outside of the body. -/
def entriesOf? (p : Project) (doc : DocComment) (method : HttpMethod) (param : ParameterDecl) :
    Option (List Schema) :=
  if place? param = some .body || isProvided p param then some []
  else (schemaOf? p .parameter param).map fun found =>
    (found.map (entriesFor p doc method param)).getD []

/-- The body of the first parameter that is placed there and has a schema. -/
def bodyOf? (p : Project) (doc : DocComment) : List ParameterDecl → Option (Option Schema)
  | [] => some none
  | param :: ps =>
    if place? param = some .body then
      (schemaOf? p .body param).bind fun found =>
        match found with
        | none => bodyOf? p doc ps
        | some s => some (some (bodyFor p doc param s))
    else bodyOf? p doc ps

/-- A request of these entries and this body, or with the form fields in place of a body. -/
def assemble (method : HttpMethod) (entries : List Schema) (body : Option Schema) : Request :=
  let r : Request := { add {} entries with body }
  { r with encoding := encodingOf r method, body := body.or (aggregate r.formFields) }

@[simp] theorem assemble_parameters (entries : List Schema) (body : Option Schema) :
    (assemble method entries body).parameters = entries.filter (!inForm ·) :=
  List.nil_append _

@[simp] theorem assemble_formFields (entries : List Schema) (body : Option Schema) :
    (assemble method entries body).formFields = entries.filter inForm :=
  List.nil_append _

theorem assemble_body (entries : List Schema) (body : Option Schema) :
    (assemble method entries body).body = body.or (aggregate (entries.filter inForm)) :=
  rfl

private theorem given?_ofParameter :
    (ofParameter p doc method (placement? param) param).given? =
      (schemaOf? p .parameter param).map fun found =>
        (found.map (entriesFor p doc method param)).getD [] := by
  rw [schemaOf?, ← given?_map, map_eq_pure_bind]
  refine congrArg given? (bind_congr fun found => ?_)
  cases found with
  | none => rfl
  | some s =>
    simp only [Option.map_some, Option.getD_some, entriesFor, place?]
    exact (apply_ite pure _ _ _).symm

private theorem given?_ofBody :
    (ofBody p doc param).given? =
      (schemaOf? p .body param).map fun found => found.map (bodyFor p doc param) :=
  given?_map _ _

theorem entriesOf?_of_body (h : place? param = some .body) :
    entriesOf? p doc method param = some [] := by
  simp [entriesOf?, h]

theorem entriesOf?_of_schema (hplace : place? param ≠ some .body)
    (hprovided : isProvided p param = false) (hs : schemaOf? p .parameter param = some (some s)) :
    entriesOf? p doc method param = some (entriesFor p doc method param s) := by
  rw [entriesOf?, hprovided, decide_eq_false hplace, hs]
  rfl

private theorem given?_addParameter_of_body (h : place? param = some .body) (r : Request) :
    (addParameter p doc method r param).given? =
      if r.body.isSome then some r
      else (ofBody p doc param).given?.map fun body => { r with body } := by
  obtain ⟨⟨location, a⟩, hplaced, rfl⟩ := Option.map_eq_some_iff.mp h
  unfold addParameter
  simp only [hplaced]
  split
  · rfl
  · rw [← given?_map, map_eq_pure_bind]

private theorem given?_addParameter (h : place? param ≠ some .body) (r : Request) :
    (addParameter p doc method r param).given? =
      (entriesOf? p doc method param).map r.add := by
  have hbody : ∀ a, placement? param ≠ some (.body, a) := by
    intro a ha
    exact h (by rw [place?, ha]; rfl)
  rw [entriesOf?, decide_eq_false h, Bool.false_or, isProvided, place?, Option.isNone_map]
  unfold addParameter
  split
  · next a ha => exact absurd ha (hbody a)
  · split
    · rw [Option.map_some, add_nil]
      rfl
    · rw [← given?_ofParameter, ← given?_map, map_eq_pure_bind]
      refine congrArg given? (bind_congr fun found => ?_)
      rw [List.partition_eq_filter_filter]
      rfl

private theorem foldlM_addParameter (ps : List ParameterDecl) (r : Request) :
    ps.foldlM (fun r param => (addParameter p doc method r param).given?) r =
      (ps.mapM (entriesOf? p doc method)).bind fun parts =>
        (if r.body.isSome then some r.body else bodyOf? p doc ps).map fun body =>
          { r.add parts.flatten with body } := by
  induction ps generalizing r with
  | nil =>
    have hbody : (if r.body.isSome then some r.body else some none) = some r.body := by
      cases r.body <;> rfl
    rw [List.mapM_nil, bodyOf?]
    change some r = (if r.body.isSome then some r.body else some none).map _
    rw [hbody, Option.map_some, List.flatten_nil, add_nil]
  | cons param ps ih =>
    rw [List.foldlM_cons, List.mapM_cons]
    simp only [Option.bind_eq_bind, Option.pure_def, Option.bind_assoc, Option.bind_some,
      List.flatten_cons, ← add_add]
    by_cases h : place? param = some .body
    · rw [given?_addParameter_of_body h, entriesOf?_of_body h, given?_ofBody, bodyOf?, if_pos h]
      simp only [Option.bind_some, add_nil]
      cases hbody : r.body with
      | some s => simpa [hbody] using ih r
      | none =>
        have hsame : { r with body := none } = r := by rw [← hbody]
        cases schemaOf? p .body param with
        | none => simp
        | some found =>
          cases found with
          | none => simpa [hbody, hsame] using ih r
          | some s => simpa [add] using ih { r with body := some (bodyFor p doc param s) }
    · rw [given?_addParameter h, bodyOf?, if_neg h]
      cases entriesOf? p doc method param with
      | none => rfl
      | some entries => exact ih (r.add entries)

/-- A request is put together of what its parameters contribute, each by itself, and of the body. -/
theorem given?_ofMethod (p : Project) (m : MethodDecl) (method : HttpMethod) :
    (ofMethod p m method).given? =
      (m.parameters.mapM (entriesOf? p m.doc method)).bind fun parts =>
        (bodyOf? p m.doc m.parameters).map (assemble method parts.flatten) := by
  have hsteady (r : Request) (param : ParameterDecl) :
      Steady (addParameter p m.doc method r param) :=
    steady_addParameter m.doc method r param
  rw [ofMethod, given?_bind fun r => alike_pure _, given?_foldlM hsteady, foldlM_addParameter,
    Option.bind_assoc]
  refine congrArg _ (funext fun parts => ?_)
  cases bodyOf? p m.doc m.parameters <;> rfl

theorem exists_parts {r : Request} {w w' : List Warning}
    (h : ofMethod p m method w = some (r, w')) :
    ∃ parts body, m.parameters.mapM (entriesOf? p m.doc method) = some parts ∧
      bodyOf? p m.doc m.parameters = some body ∧ r = assemble method parts.flatten body := by
  have hgiven := given?_eq_some (steady_ofMethod m method) h
  rw [given?_ofMethod] at hgiven
  obtain ⟨parts, hparts, hgiven⟩ := Option.bind_eq_some_iff.mp hgiven
  obtain ⟨body, hbody, rfl⟩ := Option.map_eq_some_iff.mp hgiven
  exact ⟨parts, body, hparts, hbody, rfl⟩

theorem ofMethod_of_parts {parts : List (List Schema)} {body : Option Schema}
    (hparts : m.parameters.mapM (entriesOf? p m.doc method) = some parts)
    (hbody : bodyOf? p m.doc m.parameters = some body) :
    ∃ w, ofMethod p m method [] = some (assemble method parts.flatten body, w) := by
  have hgiven := given?_ofMethod p m method
  rw [hparts, hbody] at hgiven
  obtain ⟨⟨_, w⟩, h, rfl⟩ := Option.map_eq_some_iff.mp hgiven
  exact ⟨w, h⟩

/-- A request is found if the references of the parameters are resolved by finitely many calls. -/
theorem answers_ofMethod (method : HttpMethod)
    (h : ∀ param ∈ m.parameters, Call.Ends p ⟨[], param.typeText⟩) :
    Answers (ofMethod p m method) := by
  suffices hstep : ∀ r, ∀ param ∈ m.parameters, Answers (addParameter p m.doc method r param) from
    (answers_foldlM hstep {}).bind fun r => answers_pure _
  intro r param hparam
  have hresolve (u : Usage) : Answers (Schema.resolve p u [] param.typeText) :=
    Schema.answers_of_ends (h param hparam)
  unfold addParameter
  split
  · split
    · exact answers_pure r
    · exact ((hresolve _).map _).bind fun body => answers_pure _
  · split
    · exact answers_pure r
    · have hentries : Answers (ofParameter p m.doc method (placement? param) param) := by
        refine (hresolve _).bind fun found => ?_
        cases found with
        | none => exact answers_pure []
        | some s =>
          simp only
          split <;> exact answers_pure _
      exact hentries.bind fun found => answers_pure _

end EndpointDocs.Request

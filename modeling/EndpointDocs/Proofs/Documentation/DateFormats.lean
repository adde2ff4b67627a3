import EndpointDocs.Documentation
import EndpointDocs.Proofs.Resolution.Directions

namespace EndpointDocs

open Noting Facets Schema

/-- The projects differ in date formats only. Where that shows in JSON bodies is hidden by `g`, and
where it shows elsewhere by `f`. -/
structure Redated (p q : Project) (f g : Facets) : Prop where
  parameter : ∀ d, Comparable p q ⟨d, .parameter⟩ ⟨d, .parameter⟩ f f
  body : ∀ d, Comparable p q ⟨d, .body⟩ ⟨d, .body⟩ g g

variable {p q : Project} {f g : Facets} {s t : Schema} {ss ts : List Schema}

/-- A format that is another one has to be hidden where it shows. -/
theorem redated_dated (p : Project) {body parameter : Option String}
    (hbody : g.dates = true ∨ body = p.settings.bodyDateFormat)
    (hparameter : f.dates = true ∨ parameter = p.settings.parameterDateFormat) :
    Redated p (p.dated body parameter) f g where
  parameter d :=
    { project := ⟨body, parameter, rfl⟩
      carrier := rfl
      dates := rfl
      formats := fun hshown => hparameter.resolve_left (by simp [hshown])
      defaults := .inr (.inl ⟨rfl, rfl⟩) }
  body d :=
    { project := ⟨body, parameter, rfl⟩
      carrier := rfl
      dates := rfl
      formats := fun hshown => hbody.resolve_left (by simp [hshown])
      defaults := .inr (.inl ⟨rfl, rfl⟩) }

namespace Request

/-- The parts with `f` left out of the parameters and `g` out of the body. -/
def stripped (f g : Facets) (r : Request) : Request :=
  { r with
    parameters := r.parameters.map (Schema.stripped f)
    body := r.body.map (Schema.stripped g)
    formFields := r.formFields.map (Schema.stripped f) }

/-- The facets that matter to a body, which is made of form fields unless it is JSON. -/
def bodyFacets (f g : Facets) (encoding : BodyEncoding) : Facets :=
  if encoding = .json then g else f

private theorem isFile_stripped (s : Schema) : isFile (s.stripped f) = isFile s := by
  rw [stripped_eq]
  cases hi : s.items <;> simp [isFile, hi]

private theorem locate_stripped (placed : Option Location) (s : Schema) (method : HttpMethod) :
    locate placed (s.stripped f) method = locate placed s method := by
  simp [locate, isObject]

private theorem encodingOf_stripped (r : Request) (method : HttpMethod) :
    encodingOf (r.stripped f g) method = encodingOf r method := by
  have hfiles : (r.formFields.map (Schema.stripped f)).any isFile = r.formFields.any isFile := by
    rw [List.any_map]
    congr 1
    funext s
    exact isFile_stripped s
  simp [encodingOf, stripped, hfiles]

theorem aggregate_of_ne_nil (h : ss ≠ []) :
    aggregate ss = some (withProperties (OrderedMap.ofEntries (ss.map fun s => (s.name, s)))) := by
  cases ss with
  | nil => exact absurd rfl h
  | cons s ss => rfl

private theorem aggregate_stripped (ss : List Schema) :
    aggregate (ss.map (Schema.stripped f)) = (aggregate ss).map (Schema.stripped f) := by
  by_cases hss : ss = []
  · rw [hss]
    rfl
  · have hmapped : ss.map (Schema.stripped f) ≠ [] := by simpa using hss
    have hentries : allStripped f (OrderedMap.ofEntries (ss.map fun s => (s.name, s))) =
        OrderedMap.ofEntries ((ss.map (Schema.stripped f)).map fun s => (s.name, s)) := by
      rw [OrderedMap.ofEntries, allStripped, OrderedMap.putAll_mapValues]
      simp [OrderedMap.mapEntries, OrderedMap.ofEntries, Function.comp_def]
    rw [aggregate_of_ne_nil hss, aggregate_of_ne_nil hmapped, Option.map_some, ← hentries]
    simp [withProperties, object, stripped_eq]

private theorem partition_stripped (ss : List Schema) :
    (ss.map (Schema.stripped f)).partition (·.location = some Location.form) =
      (ss.partition (·.location = some Location.form)).map (List.map (Schema.stripped f))
        (List.map (Schema.stripped f)) := by
  simp [List.partition_eq_filter_filter, List.filter_map, Function.comp_def]

private theorem agree_describe (h : Redated p q f g) (hst : s.stripped f = t.stripped f)
    (doc : DocComment) (param : ParameterDecl) (placing : Option Annotation) (location : Location) :
    (describe p doc param placing location s).stripped f =
      (describe q doc param placing location t).stripped f := by
  have hrequired : Remarks.isRequired q.settings = Remarks.isRequired p.settings := by
    obtain ⟨body, format, rfl⟩ := (h.parameter .request).project
    rfl
  have hagree := stripped_eq_iff.mp hst
  have hvalues := hagree.ownOrItemValues
  refine stripped_eq_iff.mpr (Agree.withMock (h.parameter .request) ?_ none)
  refine Agree.stampDate (h.parameter .request) ?_ param.typeText param.annotations
  exact { hagree with
    name := rfl, location := rfl, default := rfl
    required := by simp only [hrequired]
    description := by simp only [hvalues] }

private theorem parallel_ofParameter (h : Redated p q f g) (doc : DocComment) (method : HttpMethod)
    (placed : Option (Location × Annotation)) (param : ParameterDecl) :
    Parallel (fun ss ts => ss.map (Schema.stripped f) = ts.map (Schema.stripped f))
      (ofParameter p doc method placed param) (ofParameter q doc method placed param) := by
  refine (parallel_resolve (h.parameter .request) [] param.typeText).bind fun a b hab => ?_
  rcases hab.cases with ⟨rfl, rfl⟩ | ⟨s, t, rfl, rfl, hst⟩
  · exact parallel_pure rfl
  · have hlocation := congrArg (locate (placed.map Prod.fst) · method) hst
    have hobject := congrArg isObject hst
    have hchildren := congrArg children hst
    simp only [locate_stripped, isObject_stripped, children_stripped] at hlocation hobject hchildren
    simp only [← hobject, ← hlocation]
    split
    · refine parallel_pure ?_
      have hplace (l : List Schema) (place : Location) :
          (l.map fun child => { child with location := some place }).map (Schema.stripped f) =
            (l.map (Schema.stripped f)).map fun child => { child with location := some place } := by
        simp [stripped_eq]
      rw [hplace, hplace, hchildren]
    · refine parallel_pure ?_
      rw [List.map_singleton, List.map_singleton, agree_describe h hst]

private theorem parallel_ofBody (h : Redated p q f g) (doc : DocComment) (param : ParameterDecl) :
    Parallel (SameFound g g) (ofBody p doc param) (ofBody q doc param) := by
  refine comparison_parallel.map (parallel_resolve (h.body .request) [] param.typeText)
    fun a b hab => ?_
  refine hab.map fun s t hst => stripped_eq_iff.mpr ?_
  have hagree := stripped_eq_iff.mp hst
  refine Agree.stampDate (h.body .request) ?_ param.typeText param.annotations
  exact { hagree with description := by simp only [hagree.values] }

private theorem parallel_addParameter (h : Redated p q f g) (doc : DocComment) (method : HttpMethod)
    {r r' : Request} (hr : r.stripped f g = r'.stripped f g) (param : ParameterDecl) :
    Parallel (fun r r' => r.stripped f g = r'.stripped f g)
      (addParameter p doc method r param) (addParameter q doc method r' param) := by
  obtain ⟨hparameters, hencoding, hbody, hfields⟩ := Request.mk.inj hr
  have hignored : q.catalog.matchesAny q.settings.ignoredParameterTypes =
      p.catalog.matchesAny p.settings.ignoredParameterTypes := by
    obtain ⟨body, format, rfl⟩ := (h.parameter .request).project
    rfl
  unfold addParameter
  split
  · have hsome : r.body.isSome = r'.body.isSome := by
      simpa using congrArg Option.isSome hbody
    rw [hsome]
    split
    · exact parallel_pure hr
    · refine (parallel_ofBody h doc param).bind fun a b hab => parallel_pure ?_
      simp only [stripped]
      rw [hparameters, hencoding, hfields, hab]
  · rw [hignored]
    split
    · exact parallel_pure hr
    · refine (parallel_ofParameter h doc method _ param).bind fun ss ts hst => ?_
      have hparts := congrArg (List.partition (·.location = some Location.form)) hst
      rw [partition_stripped, partition_stripped] at hparts
      generalize ss.partition (·.location = some Location.form) = found at hparts ⊢
      generalize ts.partition (·.location = some Location.form) = found' at hparts ⊢
      obtain ⟨hform, hothers⟩ := Prod.mk.inj hparts
      refine parallel_pure ?_
      simp only [stripped, List.map_append]
      rw [hparameters, hencoding, hbody, hfields, hform, hothers]

private theorem parallel_ofMethod (h : Redated p q f g) (m : MethodDecl) (method : HttpMethod) :
    Parallel (fun r r' => r.encoding = r'.encoding ∧
        r.stripped f (bodyFacets f g r.encoding) = r'.stripped f (bodyFacets f g r.encoding))
      (ofMethod p m method) (ofMethod q m method) := by
  have hfold : Parallel (fun r r' => r.stripped f g = r'.stripped f g)
      (m.parameters.foldlM (addParameter p m.doc method) {})
      (m.parameters.foldlM (addParameter q m.doc method) {}) :=
    comparison_parallel.foldlM
      (fun r r' hr param _ => parallel_addParameter h m.doc method hr param) rfl
  refine hfold.bind fun r r' hr => parallel_pure ?_
  have hencoding := congrArg (encodingOf · method) hr
  simp only [encodingOf_stripped] at hencoding
  obtain ⟨hparameters, -, hbody, hfields⟩ := Request.mk.inj hr
  refine ⟨hencoding, ?_⟩
  rw [stripped, stripped, Request.mk.injEq]
  refine ⟨hparameters, hencoding, ?_, hfields⟩
  simp only
  -- Only a body of its own is JSON; otherwise the form fields stand in for it.
  cases hown : r.body with
  | none =>
    have hnone : r'.body = none := by simpa [hown] using hbody.symm
    have hform : encodingOf r method ≠ .json := by
      rw [encodingOf, hown]
      simp only [Option.isSome_none, Bool.false_eq_true, if_false]
      split
      · simp
      · split <;> simp
    rw [hnone, bodyFacets, if_neg hform, Option.none_or, Option.none_or, ← aggregate_stripped,
      ← aggregate_stripped, hfields]
  | some s =>
    have hjson : encodingOf r method = .json := by simp [encodingOf, hown]
    obtain ⟨t, ht, hst⟩ := Option.map_eq_some_iff.mp ((congrArg _ hown).symm.trans hbody).symm
    rw [ht, bodyFacets, if_pos hjson, Option.some_or, Option.some_or, Option.map_some,
      Option.map_some, hst]

end Request

private theorem Response.parallel_ofMethod (h : Redated p q f g) (m : MethodDecl) :
    Parallel (SameFound g g) (ofMethod p m) (ofMethod q m) := by
  have htype : typeFor? q = typeFor? p := by
    obtain ⟨body, format, rfl⟩ := (h.body .response).project
    rfl
  unfold ofMethod
  rw [htype]
  split
  · exact parallel_pure rfl
  · next text _ =>
    refine comparison_parallel.map (parallel_resolve (h.body .response) [] text) fun a b hab => ?_
    refine hab.map fun s t hst => stripped_eq_iff.mpr ?_
    have hagree := stripped_eq_iff.mp hst
    refine Agree.withMock (h.body .response) ?_ none
    refine Agree.stampDate (h.body .response) ?_ text m.annotations
    exact { hagree with description := by simp only [hagree.values] }

namespace Endpoint

def stripped (f g : Facets) (e : Endpoint) : Endpoint :=
  { e with
    parameters := e.parameters.map (Schema.stripped f)
    body := e.body.map (Schema.stripped (if e.bodyEncoding = some .json then g else f))
    formFields := e.formFields.map (Schema.stripped f)
    response := e.response.map (Schema.stripped g) }

/-- The endpoint without the date formats and mocks of its JSON body and its response. -/
def withoutBodyDates (e : Endpoint) : Endpoint :=
  { e with
    body := if e.bodyEncoding = some .json then e.body.map (Schema.stripped onlyDates) else e.body
    response := e.response.map (Schema.stripped onlyDates) }

/-- The endpoint without the date formats and mocks of its parameters and its form. -/
def withoutParameterDates (e : Endpoint) : Endpoint :=
  { e with
    parameters := e.parameters.map (Schema.stripped onlyDates)
    body := if e.bodyEncoding = some .json then e.body else e.body.map (Schema.stripped onlyDates)
    formFields := e.formFields.map (Schema.stripped onlyDates) }

private theorem stripped_onlyBody (e : Endpoint) :
    e.stripped {} onlyDates = e.withoutBodyDates := by
  have hnothing : Schema.stripped {} = id := funext stripped_nothing
  rw [stripped, withoutBodyDates, hnothing]
  split <;> simp [hnothing]

private theorem stripped_onlyParameters (e : Endpoint) :
    e.stripped onlyDates {} = e.withoutParameterDates := by
  have hnothing : Schema.stripped {} = id := funext stripped_nothing
  rw [stripped, withoutParameterDates, hnothing]
  split <;> simp [hnothing]

/-- Corrections of endpoints leave the schemas alone. -/
theorem stripped_corrected (e : Endpoint) (settings : Settings) :
    (e.corrected settings).stripped f g = (e.stripped f g).corrected settings := by
  have hoverride : settings.endpointOverride? (e.stripped f g).method (e.stripped f g).path =
      settings.endpointOverride? e.method e.path := rfl
  rw [corrected, corrected, hoverride]
  cases settings.endpointOverride? e.method e.path <;> rfl

end Endpoint

namespace Documentation

private theorem parallel_common (h : Redated p q f g) (t : TypeDecl) (m : MethodDecl)
    (method : HttpMethod) : Parallel (fun e e' => e.stripped f g = e'.stripped f g)
      (common p t m method) (common q t m method) := by
  refine (Request.parallel_ofMethod h m method).bind fun r r' ⟨hencoding, hr⟩ => ?_
  refine (Response.parallel_ofMethod h m).bind fun a b hab => parallel_pure ?_
  obtain ⟨hparameters, -, hbody, hfields⟩ := Request.mk.inj hr
  have hfacets : (if some r.encoding = some BodyEncoding.json then g else f) =
      Request.bodyFacets f g r.encoding := by simp [Request.bodyFacets]
  simp only [Endpoint.stripped]
  rw [← hencoding, hfacets, hparameters, hbody, hfields, hab]

private theorem parallel_ofMethod (h : Redated p q f g) (t : TypeDecl) (base : String)
    (m : MethodDecl) :
    Parallel (fun es es' => es.map (Endpoint.stripped f g) = es'.map (Endpoint.stripped f g))
      (ofMethod p t base m) (ofMethod q t base m) := by
  have hcorrected (e : Endpoint) : e.corrected q.settings = e.corrected p.settings := by
    obtain ⟨body, format, rfl⟩ := (h.parameter .request).project
    rfl
  unfold ofMethod
  split
  · exact parallel_pure rfl
  · next route _ =>
    refine (parallel_common h t m route.method).bind fun e e' he => parallel_pure ?_
    simp only [List.map_map]
    apply List.map_congr_left
    intro path _
    have hpath : { e with path := Route.compose base path }.stripped f g =
        { e' with path := Route.compose base path }.stripped f g :=
      congrArg (fun e => { e with path := Route.compose base path }) he
    simp only [Function.comp_apply]
    rw [hcorrected, Endpoint.stripped_corrected, Endpoint.stripped_corrected, hpath]

/-- The date format for JSON bodies shows in JSON bodies and responses only, and the one for other
values in parameters, form fields and bodies made of these only. Neither adds a warning. -/
theorem ofMethod_dateFormats (c : Catalog) (s : Settings) (t : TypeDecl) (base : String)
    (m : MethodDecl) (format : Option String) :
    List.map Endpoint.withoutBodyDates <$>
        ofMethod (Project.of c { s with bodyDateFormat := format }) t base m =
      List.map Endpoint.withoutBodyDates <$> ofMethod (Project.of c s) t base m ∧
    List.map Endpoint.withoutParameterDates <$>
        ofMethod (Project.of c { s with parameterDateFormat := format }) t base m =
      List.map Endpoint.withoutParameterDates <$> ofMethod (Project.of c s) t base m := by
  constructor
  · have h : Redated (Project.of c s) ((Project.of c s).dated format s.parameterDateFormat)
        {} onlyDates := redated_dated _ (.inl rfl) (.inr rfl)
    have hparts : Endpoint.withoutBodyDates = Endpoint.stripped {} onlyDates :=
      funext fun e => (Endpoint.stripped_onlyBody e).symm
    rw [hparts]
    exact (parallel_ofMethod h t base m).map_eq.symm
  · have h : Redated (Project.of c s) ((Project.of c s).dated s.bodyDateFormat format)
        onlyDates {} := redated_dated _ (.inr rfl) (.inl rfl)
    have hparts : Endpoint.withoutParameterDates = Endpoint.stripped onlyDates {} :=
      funext fun e => (Endpoint.stripped_onlyParameters e).symm
    rw [hparts]
    exact (parallel_ofMethod h t base m).map_eq.symm

end Documentation

end EndpointDocs

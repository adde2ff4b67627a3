import EndpointDocs.Documentation
import EndpointDocs.Proofs.Resolution.OpenTypes
import EndpointDocs.Proofs.Resolution.Soundness
import EndpointDocs.Proofs.Resolution.Termination

namespace EndpointDocs

open Noting

variable {p : Project}

/-- All schemas that an endpoint shows. -/
def Endpoint.schemas (e : Endpoint) : List Schema :=
  e.parameters ++ e.body.toList ++ e.formFields ++ e.response.toList

namespace Request

open Schema

/-- All parts of a request are sound. -/
structure Sound (r : Request) : Prop where
  parameters : ∀ s ∈ r.parameters, s.Sound
  body : SoundFound r.body
  formFields : ∀ s ∈ r.formFields, s.Sound

private theorem sound_describe {s : Schema} (hs : s.Sound) (doc : DocComment)
    (param : ParameterDecl) (placing : Option Annotation) (location : Location) :
    (describe p doc param placing location s).Sound := by
  refine Schema.Sound.withMock ?_ _
  refine Schema.Sound.stampDate ?_ _ _ _
  exact hs.edit rfl rfl rfl

private theorem ofParameter_sound (doc : DocComment) (method : HttpMethod)
    (placed : Option (Location × Annotation)) (param : ParameterDecl) :
    Yields (ofParameter p doc method placed param) fun found => ∀ s ∈ found, s.Sound := by
  refine (resolve_sound p _ _ _).bind fun found hfound => ?_
  cases found with
  | none => exact yields_pure (by simp)
  | some s =>
    have hs := hfound s rfl
    simp only
    split
    · -- The properties of an object take its place.
      refine yields_pure fun c hc => ?_
      obtain ⟨child, hchild, rfl⟩ := List.mem_map.mp hc
      exact (hs.children hchild).edit rfl rfl rfl
    · refine yields_pure fun c hc => ?_
      obtain rfl := List.mem_singleton.mp hc
      exact sound_describe hs doc param _ _

private theorem ofBody_sound (doc : DocComment) (param : ParameterDecl) :
    Yields (ofBody p doc param) SoundFound := by
  refine (resolve_sound p _ _ _).bind fun found hfound => yields_pure ?_
  refine hfound.map fun s hs => ?_
  refine Schema.Sound.stampDate ?_ _ _ _
  exact hs.edit rfl rfl rfl

private theorem addParameter_sound {r : Request} (hr : r.Sound) (doc : DocComment)
    (method : HttpMethod)
    (param : ParameterDecl) : Yields (addParameter p doc method r param) Sound := by
  unfold addParameter
  split
  · split
    · exact yields_pure hr
    · refine (ofBody_sound doc param).bind fun body hbody => yields_pure ?_
      exact ⟨hr.parameters, hbody, hr.formFields⟩
  · split
    · exact yields_pure hr
    · refine (ofParameter_sound doc method _ param).bind fun found hfound => ?_
      rw [List.partition_eq_filter_filter]
      refine yields_pure ⟨?_, hr.body, ?_⟩
      · intro s hs
        rcases List.mem_append.mp hs with hs | hs
        · exact hr.parameters s hs
        · exact hfound s (List.mem_filter.mp hs).1
      · intro s hs
        rcases List.mem_append.mp hs with hs | hs
        · exact hr.formFields s hs
        · exact hfound s (List.mem_filter.mp hs).1

private theorem aggregate_sound {fields : List Schema} (h : ∀ s ∈ fields, s.Sound) :
    SoundFound (aggregate fields) := by
  cases fields with
  | nil => exact soundFound_none
  | cons s fields =>
    refine soundFound_some (sound_withProperties ?_)
    apply soundProperties_nil.putAll
    · intro e he
      obtain ⟨f, _, rfl⟩ := List.mem_map.mp he
      rfl
    · intro e he
      obtain ⟨f, hf, rfl⟩ := List.mem_map.mp he
      exact h f hf

theorem ofMethod_sound (m : MethodDecl) (method : HttpMethod) :
    Yields (ofMethod p m method) Sound := by
  have hstart : Sound {} := ⟨by simp, soundFound_none, by simp⟩
  refine (yields_foldlM hstart fun r hr param _ => ?_).bind fun r hr => yields_pure ?_
  · exact addParameter_sound hr m.doc method param
  · refine ⟨hr.parameters, ?_, hr.formFields⟩
    intro s hs
    rcases Option.or_eq_some_iff.mp hs with hs | ⟨_, hs⟩
    · exact hr.body s hs
    · exact aggregate_sound hr.formFields s hs

end Request

namespace Response

open Schema

theorem ofMethod_sound (m : MethodDecl) : Yields (ofMethod p m) SoundFound := by
  unfold ofMethod
  split
  · exact yields_pure soundFound_none
  · refine (resolve_sound p _ _ _).bind fun found hfound => yields_pure ?_
    refine hfound.map fun s hs => ?_
    refine Schema.Sound.withMock ?_ _
    refine Schema.Sound.stampDate ?_ _ _ _
    exact hs.edit rfl rfl rfl

end Response

namespace Documentation

open Schema

private theorem common_sound (t : TypeDecl) (m : MethodDecl) (method : HttpMethod) :
    Yields (common p t m method) fun e => ∀ s ∈ e.schemas, s.Sound := by
  refine (Request.ofMethod_sound m method).bind fun request hrequest => ?_
  refine (Response.ofMethod_sound m).bind fun response hresponse => yields_pure ?_
  intro s hs
  simp only [Endpoint.schemas, List.mem_append, Option.mem_toList] at hs
  rcases hs with ((hs | hs) | hs) | hs
  · exact hrequest.parameters s hs
  · exact hrequest.body s hs
  · exact hrequest.formFields s hs
  · exact hresponse s hs

/-- Corrections of an endpoint leave its schemas alone. -/
theorem schemas_corrected (e : Endpoint) (settings : Settings) :
    (e.corrected settings).schemas = e.schemas := by
  unfold Endpoint.corrected
  split <;> rfl

theorem response_corrected (e : Endpoint) (settings : Settings) :
    (e.corrected settings).response = e.response := by
  unfold Endpoint.corrected
  split <;> rfl

theorem ofMethod_sound (t : TypeDecl) (base : String) (m : MethodDecl) :
    Yields (ofMethod p t base m) fun endpoints => ∀ e ∈ endpoints, ∀ s ∈ e.schemas, s.Sound := by
  unfold ofMethod
  split
  · exact yields_pure (by simp)
  · refine (common_sound t m _).bind fun e he => yields_pure ?_
    intro e' he'
    obtain ⟨path, _, rfl⟩ := List.mem_map.mp he'
    rw [schemas_corrected]
    exact he

/-- What references are resolved to and what the endpoints of a method show are well-formed trees,
in which every property stands under its own name. -/
theorem documented_schemas_hold_form (p : Project) :
    (∀ u chain text w s w', Schema.resolve p u chain text w = some (some s, w') →
      s.isWellFormed = true ∧ ∀ n, s.HasNode n → n.NamesProperties) ∧
    ∀ t base m w endpoints w', ofMethod p t base m w = some (endpoints, w') →
      ∀ e ∈ endpoints, ∀ s ∈ e.schemas,
        s.isWellFormed = true ∧ ∀ n, s.HasNode n → n.NamesProperties := by
  constructor
  · intro u chain text w s w' h
    exact Schema.sound_iff_isWellFormed.mp (Schema.resolve_sound p u chain text h s rfl)
  · intro t base m w endpoints w' h e he s hs
    exact Schema.sound_iff_isWellFormed.mp (ofMethod_sound t base m h e he s hs)

def rootsMethod : MethodDecl :=
  { name := "roots", returnType := "Node[]"
    annotations := [{ name := "GetMapping", attributes := [("value", ["/roots"])] }] }

private theorem resolve_treeList :
    ∃ items w,
      resolve treeProject ⟨.response, .body⟩ [] "Node[]" [] = some (some (array items), w) := by
  obtain ⟨r, hr⟩ := answers_of_ends (u := ⟨.response, .body⟩) ends_treeList []
  obtain ⟨_, hstep⟩ := step_treeList
  rw [resolve_eq_resolveOnce, resolveOnce] at hr
  simp only [hstep] at hr
  obtain ⟨found, w, hitems, _⟩ := bind_eq_some.mp hr
  refine ⟨found.getD object, w, ?_⟩
  rw [resolve_eq_resolveOnce, resolveOnce]
  simp only [hstep]
  exact bind_eq_some.mpr ⟨found, w, hitems, rfl⟩

private theorem typeFor?_roots : Response.typeFor? treeProject "Node[]" = some "Node[]" := by
  have htrim : Text.trim "Node[]" = "Node[]" := by decide
  have hvoid : TypeText.isVoid "Node[]" = false := by decide
  have hplain :
      treeProject.catalog.matchesAny treeProject.settings.unwrappedTypes "Node[]" = false := by
    decide
  have hcarried :
      Response.carried (treeProject.catalog.matchesAny treeProject.settings.unwrappedTypes)
        "Node[]" = "Node[]" := by
    rw [Response.carried, hplain]
    rfl
  have hwrapper : Response.wrapperFor? treeProject.settings "Node[]" = none := by decide
  unfold Response.typeFor?
  rw [htrim]
  simp only [hcarried, hvoid]
  rw [hwrapper]
  rfl

/-- A method without parameters shows the schema of what it returns. -/
theorem ofMethod_roots :
    ∃ e w, ofMethod treeProject treeNode "/tree" rootsMethod [] = some ([e], w) ∧
      e.response.isSome := by
  have hroute : Route.ofAnnotations? rootsMethod.annotations = some ⟨.get, ["/roots"]⟩ := by
    decide
  have hdeclared :
      (Response.linkedType? rootsMethod.doc).getD rootsMethod.returnType = "Node[]" := by
    decide
  obtain ⟨items, w, hitems⟩ := resolve_treeList
  have hrequest : Request.ofMethod treeProject rootsMethod .get [] = some ({}, []) := rfl
  have hresponse : ∃ t, Response.ofMethod treeProject rootsMethod [] = some (some t, w) := by
    unfold Response.ofMethod
    rw [hdeclared, typeFor?_roots]
    exact ⟨_, bind_eq_some.mpr ⟨_, w, hitems, rfl⟩⟩
  obtain ⟨t, ht⟩ := hresponse
  have hcommon : ∃ e, common treeProject treeNode rootsMethod .get [] = some (e, w) ∧
      e.response = some t :=
    ⟨_, bind_eq_some.mpr ⟨_, [], hrequest, bind_eq_some.mpr ⟨_, w, ht, rfl⟩⟩, rfl⟩
  obtain ⟨e, he, het⟩ := hcommon
  rw [ofMethod, hroute]
  refine ⟨_, w, bind_eq_some.mpr ⟨e, w, he, rfl⟩, ?_⟩
  simp [response_corrected, het]

/-- The schemas of a list of trees, and those of an endpoint that answers with it. -/
theorem documented_schemas_hold_form_roots :
    (∃ s w, resolve treeProject ⟨.response, .body⟩ [] "Node[]" [] = some (some s, w) ∧
      s.isWellFormed = true ∧ ∀ n, s.HasNode n → n.NamesProperties) ∧
    ∃ e w, ofMethod treeProject treeNode "/tree" rootsMethod [] = some ([e], w) ∧
      e.schemas ≠ [] ∧ ∀ s ∈ e.schemas,
        s.isWellFormed = true ∧ ∀ n, s.HasNode n → n.NamesProperties := by
  obtain ⟨resolved, documented⟩ := documented_schemas_hold_form treeProject
  constructor
  · obtain ⟨items, w, h⟩ := resolve_treeList
    exact ⟨array items, w, h, resolved _ _ _ _ _ _ h⟩
  · obtain ⟨e, w, h, hshown⟩ := ofMethod_roots
    obtain ⟨t, ht⟩ := Option.isSome_iff_exists.mp hshown
    have hmem : t ∈ e.schemas := by simp [Endpoint.schemas, ht]
    refine ⟨e, w, h, List.ne_nil_of_mem hmem, ?_⟩
    exact documented _ _ _ _ _ _ h e (List.mem_singleton.mpr rfl)

end Documentation

end EndpointDocs

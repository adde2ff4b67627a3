import EndpointDocs.Proofs.Documentation.DateFormats
import EndpointDocs.Proofs.Documentation.Soundness
import EndpointDocs.Proofs.Request.Parts

namespace EndpointDocs

/-- A file or an array of files. -/
def Schema.IsUpload (s : Schema) : Prop :=
  s.dataType = .file ∨ s.dataType = .array ∧ ∃ items, s.items = some items ∧ items.dataType = .file

namespace Request

open Noting

variable {p : Project} {doc : DocComment} {m : MethodDecl} {method : HttpMethod}
  {param : ParameterDecl} {ps : List ParameterDecl} {s t : Schema} {entries : List Schema}
  {body : Option Schema}

/-- What describing a parameter leaves as it is, and what it says. -/
theorem describe_frame (p : Project) (doc : DocComment) (param : ParameterDecl)
    (placing : Option Annotation) (location : Location) (s : Schema) :
    let described := describe p doc param placing location s
    described.name = (placing.bind (·.firstValue? ["value", "name"])).getD param.name ∧
      described.location = some location ∧
      (location = .path → described.required = true) ∧
      described.dataType = s.dataType ∧ described.items = s.items := by
  simp only [describe, Project.withMock, Schema.stampDate_eq, true_and, and_true]
  intro hpath
  simp [hpath]

/-- Only what is placed there goes into the body. -/
theorem locate_ne_body (h : place? param ≠ some .body) :
    locate (place? param) s method ≠ .body := by
  unfold locate
  cases hplace : place? param with
  | none => cases s.isObject || s.dataType = .file <;> cases method <;> simp [HttpMethod.allowsBody]
  | some location =>
    rw [hplace] at h
    cases location <;> cases method <;> simp_all [HttpMethod.allowsBody]

private theorem allowsBody_of_locate {placed : Option Location}
    (h : locate placed s method = .form) : method.allowsBody = true := by
  rw [locate] at h
  generalize placed.getD (if s.isObject || s.dataType = .file then .form else .query) = l at h
  by_contra hbody
  cases l <;> simp [hbody] at h

theorem location_of_mem_entriesFor (h : s ∈ entriesFor p doc method param t) :
    s.location = some (locate (place? param) t method) ∧
      (locate (place? param) t method = .path → s.required = true) := by
  unfold entriesFor at h
  simp only at h
  split at h
  · next hflat =>
    obtain ⟨child, _, rfl⟩ := List.mem_map.mp h
    exact ⟨rfl, fun hpath => by simp [hpath] at hflat⟩
  · obtain rfl := List.mem_singleton.mp h
    obtain ⟨_, hlocation, hrequired, _⟩ := describe_frame p doc param
      ((placement? param).map Prod.snd) (locate (place? param) t method) t
    exact ⟨hlocation, hrequired⟩

theorem mem_entriesOf? (h : entriesOf? p doc method param = some entries) (hs : s ∈ entries) :
    place? param ≠ some .body ∧ isProvided p param = false ∧
      ∃ t, schemaOf? p .parameter param = some (some t) ∧ s ∈ entriesFor p doc method param t := by
  unfold entriesOf? at h
  split at h
  · cases h
    cases hs
  · next hread =>
    obtain ⟨hplace, hprovided⟩ : place? param ≠ some .body ∧ isProvided p param = false := by
      simpa using hread
    obtain ⟨found, hfound, rfl⟩ := Option.map_eq_some_iff.mp h
    cases found with
    | none => cases hs
    | some t => exact ⟨hplace, hprovided, t, hfound, hs⟩

/-- Every entry is contributed by a parameter. -/
theorem exists_parameter {parts : List (List Schema)}
    (h : ps.mapM (entriesOf? p doc method) = some parts) (hs : s ∈ parts.flatten) :
    ∃ param ∈ ps, ∃ entries, entriesOf? p doc method param = some entries ∧ s ∈ entries := by
  induction ps generalizing parts with
  | nil =>
    cases h
    cases hs
  | cons param ps ih =>
    rw [List.mapM_cons] at h
    obtain ⟨entries, hentries, h⟩ := Option.bind_eq_some_iff.mp h
    obtain ⟨rest, hrest, h⟩ := Option.bind_eq_some_iff.mp h
    cases h
    rcases List.mem_append.mp (List.flatten_cons ▸ hs) with hs | hs
    · exact ⟨param, List.mem_cons_self, entries, hentries, hs⟩
    · obtain ⟨q, hq, hfound⟩ := ih hrest hs
      exact ⟨q, List.mem_cons_of_mem _ hq, hfound⟩

/-- Whether a parameter is placed in the body and has a schema. -/
def TakesBody (p : Project) (m : MethodDecl) : Prop :=
  ∃ param ∈ m.parameters, place? param = some .body ∧ ∃ s, schemaOf? p .body param = some (some s)

private theorem bodyOf?_eq_none (h : bodyOf? p doc ps = some none) :
    ∀ param ∈ ps, place? param = some .body → schemaOf? p .body param = some none := by
  induction ps with
  | nil => exact List.forall_mem_nil _
  | cons param ps ih =>
    rw [bodyOf?] at h
    split at h
    · obtain ⟨found, hfound, h⟩ := Option.bind_eq_some_iff.mp h
      cases found with
      | none => exact List.forall_mem_cons.mpr ⟨fun _ => hfound, ih h⟩
      | some s => cases h
    · next hplace => exact List.forall_mem_cons.mpr ⟨fun hbody => absurd hbody hplace, ih h⟩

/-- The body is that of the first parameter that is placed there and has a schema. -/
theorem bodyOf?_eq_some {b : Schema} (h : bodyOf? p doc ps = some (some b)) :
    ∃ before param after s, ps = before ++ param :: after ∧ place? param = some .body ∧
      (∀ q ∈ before, place? q = some .body → schemaOf? p .body q = some none) ∧
      schemaOf? p .body param = some (some s) ∧ b = bodyFor p doc param s := by
  induction ps with
  | nil => cases h
  | cons param ps ih =>
    rw [bodyOf?] at h
    split at h
    · next hplace =>
      obtain ⟨found, hfound, h⟩ := Option.bind_eq_some_iff.mp h
      cases found with
      | none =>
        obtain ⟨before, q, after, s, rfl, hq, hbefore, hs, rfl⟩ := ih h
        exact ⟨param :: before, q, after, s, rfl, hq,
          List.forall_mem_cons.mpr ⟨fun _ => hfound, hbefore⟩, hs, rfl⟩
      | some s =>
        cases h
        exact ⟨[], param, ps, s, rfl, hplace, List.forall_mem_nil _, hfound, rfl⟩
    · next hplace =>
      obtain ⟨before, q, after, s, rfl, hq, hbefore, hs, rfl⟩ := ih h
      exact ⟨param :: before, q, after, s, rfl, hq,
        List.forall_mem_cons.mpr ⟨fun hbody => absurd hbody hplace, hbefore⟩, hs, rfl⟩

theorem isSome_iff_takesBody (h : bodyOf? p doc m.parameters = some body) :
    body.isSome = true ↔ TakesBody p m := by
  cases body with
  | none =>
    refine ⟨fun hsome => (Bool.false_ne_true hsome).elim, ?_⟩
    rintro ⟨param, hparam, hplace, s, hs⟩
    rw [bodyOf?_eq_none h param hparam hplace] at hs
    cases hs
  | some b =>
    obtain ⟨before, param, after, s, hps, hplace, _, hs, _⟩ := bodyOf?_eq_some h
    exact ⟨fun _ => ⟨param, hps ▸ by simp, hplace, s, hs⟩, fun _ => rfl⟩

/-- Of the two tests for uploads one looks at the items only, and only arrays have any. -/
theorem isFile_iff (hs : s.Sound) : isFile s = true ↔ s.IsUpload := by
  have hform := (Schema.sound_iff.mp hs).1
  unfold isFile Schema.IsUpload
  cases hitems : s.items with
  | none => simp
  | some items =>
    have htype : s.dataType = .array := by
      by_contra hne
      rw [hform.items_eq_none hne] at hitems
      cases hitems
    simp [htype]

private theorem aggregate_keys (h : entries ≠ []) : ∃ b properties, aggregate entries = some b ∧
    b.dataType = .object ∧ b.properties = some properties ∧ (OrderedMap.keys properties).Nodup ∧
      ∀ k, k ∈ OrderedMap.keys properties ↔ ∃ s ∈ entries, s.name = k := by
  have hnodup : (OrderedMap.keys ([] : OrderedMap Schema)).Nodup := List.nodup_nil
  refine ⟨_, _, aggregate_of_ne_nil h, rfl, rfl, OrderedMap.nodup_keys_putAll hnodup _, ?_⟩
  intro k
  rw [OrderedMap.ofEntries, OrderedMap.mem_keys_putAll]
  simp [OrderedMap.keys]

/-- What the parts of a request say of each other and of the parameters of the method. -/
structure Consistent (p : Project) (m : MethodDecl) (method : HttpMethod) (r : Request) : Prop where
  parameters : ∀ s ∈ r.parameters, s.location = some .path ∧ s.required = true ∨
    s.location = some .query ∨ s.location = some .header
  formFields : ∀ s ∈ r.formFields, s.location = some .form
  bodyless : method.allowsBody = false → r.formFields = []
  json : r.encoding = .json ↔ TakesBody p m
  formData : r.encoding = .formData ↔ ¬TakesBody p m ∧ ∃ s ∈ r.formFields, s.IsUpload
  form : r.encoding = .form ↔ ¬TakesBody p m ∧ (∀ s ∈ r.formFields, ¬s.IsUpload) ∧
    (r.formFields ≠ [] ∨ method.allowsBody = true)
  raw : r.encoding = .raw ↔ ¬TakesBody p m ∧ r.formFields = [] ∧ method.allowsBody = false
  ownBody : TakesBody p m → ∃ before param after s, m.parameters = before ++ param :: after ∧
    place? param = some .body ∧
    (∀ q ∈ before, place? q = some .body → schemaOf? p .body q = some none) ∧
    schemaOf? p .body param = some (some s) ∧ r.body = some (bodyFor p m.doc param s)
  noBody : ¬TakesBody p m → r.formFields = [] → r.body = none
  formBody : ¬TakesBody p m → r.formFields ≠ [] → ∃ b properties, r.body = some b ∧
    b.dataType = .object ∧ b.properties = some properties ∧ (OrderedMap.keys properties).Nodup ∧
    ∀ k, k ∈ OrderedMap.keys properties ↔ ∃ s ∈ r.formFields, s.name = k

private theorem location_of_mem_parts {parts : List (List Schema)}
    (h : ps.mapM (entriesOf? p doc method) = some parts) (hs : s ∈ parts.flatten) :
    s.location = some .path ∧ s.required = true ∨ s.location = some .query ∨
      s.location = some .header ∨ s.location = some .form ∧ method.allowsBody = true := by
  obtain ⟨param, _, entries, hentries, hs⟩ := exists_parameter h hs
  obtain ⟨hplace, _, t, _, hs⟩ := mem_entriesOf? hentries hs
  obtain ⟨hlocation, hrequired⟩ := location_of_mem_entriesFor hs
  rw [hlocation]
  cases hlocate : locate (place? param) t method with
  | path => exact .inl ⟨rfl, hrequired hlocate⟩
  | query => exact .inr (.inl rfl)
  | header => exact .inr (.inr (.inl rfl))
  | body => exact absurd hlocate (locate_ne_body hplace)
  | form => exact .inr (.inr (.inr ⟨rfl, allowsBody_of_locate hlocate⟩))

theorem uploads_iff {fields : List Schema} (h : ∀ s ∈ fields, s.Sound) :
    fields.any isFile = true ↔ ∃ s ∈ fields, s.IsUpload := by
  rw [List.any_eq_true]
  exact exists_congr fun s => and_congr_right fun hs => isFile_iff (h s hs)

theorem encodingOf_eq (method : HttpMethod) (r : Request) {taken : Prop}
    (hbody : r.body.isSome = true ↔ taken) (hsound : ∀ s ∈ r.formFields, s.Sound) :
    (encodingOf r method = .json ↔ taken) ∧
      (encodingOf r method = .formData ↔ ¬taken ∧ ∃ s ∈ r.formFields, s.IsUpload) ∧
      (encodingOf r method = .form ↔ ¬taken ∧ (∀ s ∈ r.formFields, ¬s.IsUpload) ∧
        (r.formFields ≠ [] ∨ method.allowsBody = true)) ∧
      (encodingOf r method = .raw ↔ ¬taken ∧ r.formFields = [] ∧ method.allowsBody = false) := by
  have huploads := uploads_iff hsound
  have hnone : (∀ s ∈ r.formFields, ¬s.IsUpload) ↔ ¬∃ s ∈ r.formFields, s.IsUpload := by simp
  rw [← hbody, ← huploads, hnone, ← huploads]
  unfold encodingOf
  cases r.formFields with
  | nil => cases r.body.isSome <;> cases method.allowsBody <;> simp
  | cons field fields =>
    generalize (field :: fields).any isFile = files
    cases r.body.isSome <;> cases files <;> simp

private theorem consistent_assemble {parts : List (List Schema)}
    (hparts : m.parameters.mapM (entriesOf? p m.doc method) = some parts)
    (hbody : bodyOf? p m.doc m.parameters = some body)
    (hsound : ∀ s ∈ (assemble method parts.flatten body).formFields, s.Sound) :
    Consistent p m method (assemble method parts.flatten body) := by
  have htaken := isSome_iff_takesBody hbody
  have hplaces : ∀ s ∈ parts.flatten, _ := fun s hs => location_of_mem_parts hparts hs
  obtain ⟨hjson, hformData, hform, hraw⟩ := encodingOf_eq method
    { add {} parts.flatten with body } htaken hsound
  refine
    { parameters := fun s hs => ?_
      formFields := fun s hs => ?_
      bodyless := fun hbodyless => List.eq_nil_iff_forall_not_mem.mpr fun s hs => ?_
      json := hjson
      formData := hformData
      form := hform
      raw := hraw
      ownBody := fun htakes => ?_
      noBody := fun htakes hfields => ?_
      formBody := fun htakes hfields => ?_ }
  · obtain ⟨hmem, hplace⟩ := List.mem_filter.mp (assemble_parameters _ _ ▸ hs)
    rcases hplaces s hmem with h | h | h | ⟨h, _⟩
    · exact .inl h
    · exact .inr (.inl h)
    · exact .inr (.inr h)
    · simp [inForm, h] at hplace
  · obtain ⟨_, hplace⟩ := List.mem_filter.mp (assemble_formFields _ _ ▸ hs)
    exact of_decide_eq_true hplace
  · obtain ⟨hmem, hplace⟩ := List.mem_filter.mp (assemble_formFields _ _ ▸ hs)
    rcases hplaces s hmem with ⟨h, _⟩ | h | h | ⟨_, hallows⟩
    · simp [inForm, h] at hplace
    · simp [inForm, h] at hplace
    · simp [inForm, h] at hplace
    · exact absurd hallows (by simp [hbodyless])
  · cases body with
    | none => exact absurd (htaken.mpr htakes) Bool.false_ne_true
    | some b =>
      obtain ⟨before, param, after, s, hps, hplace, hbefore, hs, rfl⟩ := bodyOf?_eq_some hbody
      exact ⟨before, param, after, s, hps, hplace, hbefore, hs, rfl⟩
  · have hnone : body = none := by simpa using mt htaken.mp htakes
    rw [assemble_formFields] at hfields
    rw [assemble_body, hnone, hfields]
    rfl
  · have hnone : body = none := by simpa using mt htaken.mp htakes
    rw [assemble_body, hnone]
    exact aggregate_keys hfields

/-- A request whose parameters have schemas that are found by finitely many calls is found, and
every request that is found has its parts in their places. -/
theorem ofMethod_consistent (p : Project) (m : MethodDecl) (method : HttpMethod)
    (w : List Warning) :
    ((∀ param ∈ m.parameters, Call.Ends p ⟨[], param.typeText⟩) →
        ∃ r w', ofMethod p m method w = some (r, w')) ∧
      ∀ r w', ofMethod p m method w = some (r, w') → Consistent p m method r := by
  constructor
  · intro h
    obtain ⟨⟨r, w'⟩, hr⟩ := answers_ofMethod method h w
    exact ⟨r, w', hr⟩
  · intro r w' h
    obtain ⟨parts, body, hparts, hbody, rfl⟩ := exists_parts h
    exact consistent_assemble hparts hbody (ofMethod_sound m method h).formFields

def numberInPath : ParameterDecl :=
  { name := "id", typeText := "int", annotations := [{ name := "PathVariable" }] }

def bareFile : ParameterDecl :=
  { name := "picture", typeText := "file" }

def voidBody : ParameterDecl :=
  { name := "nothing", typeText := "void", annotations := [{ name := "RequestBody" }] }

/-- A method that takes a file for a number in the path, and a body that has no schema. -/
def uploadMethod : MethodDecl :=
  { name := "upload", parameters := [numberInPath, bareFile, voidBody] }

theorem resolve_upload (u : Usage) :
    Schema.resolve (Project.of {} {}) u [] "int" [] = some (some (.scalar .integer), []) ∧
      Schema.resolve (Project.of {} {}) u [] "file" [] = some (some (.scalar .file), []) ∧
      Schema.resolve (Project.of {} {}) u [] "void" [] = some (none, []) := by
  have hint : Shape.step (Project.of {} {}) "int" = .settled (.plain .integer) := rfl
  have hfile : Shape.step (Project.of {} {}) "file" = .settled (.plain .file) := rfl
  have hvoid : Shape.step (Project.of {} {}) "void" = .settled .nothing := rfl
  refine ⟨Schema.resolve_of_plain hint [], Schema.resolve_of_plain hfile [], ?_⟩
  rw [Schema.resolve_eq_resolveOnce, Schema.resolveOnce, hvoid]
  rfl

private theorem given?_ofMethod_upload :
    (ofMethod (Project.of {} {}) uploadMethod .post).given? =
      some (assemble .post
        (entriesFor (Project.of {} {}) {} .post numberInPath (.scalar .integer) ++
          entriesFor (Project.of {} {}) {} .post bareFile (.scalar .file)) none) := by
  obtain ⟨hint, hfile, hvoid⟩ := resolve_upload ⟨.request, .parameter⟩
  have hnumber : entriesOf? (Project.of {} {}) {} .post numberInPath = _ :=
    entriesOf?_of_schema (by decide) (by decide) (congrArg (Option.map Prod.fst) hint)
  have hpicture : entriesOf? (Project.of {} {}) {} .post bareFile = _ :=
    entriesOf?_of_schema (by decide) (by decide) (congrArg (Option.map Prod.fst) hfile)
  have hbody : entriesOf? (Project.of {} {}) {} .post voidBody = some [] :=
    entriesOf?_of_body (by decide)
  have hnone : schemaOf? (Project.of {} {}) .body voidBody = some none :=
    congrArg (Option.map Prod.fst) (resolve_upload ⟨.request, .body⟩).2.2
  have hplaces : place? numberInPath ≠ some .body ∧ place? bareFile ≠ some .body ∧
      place? voidBody = some .body := by decide
  rw [given?_ofMethod]
  simp [uploadMethod, hnumber, hpicture, hbody, bodyOf?, hplaces, hnone]

theorem ofMethod_consistent_upload :
    (∀ param ∈ uploadMethod.parameters, Call.Ends (Project.of {} {}) ⟨[], param.typeText⟩) ∧
      ∃ r w', ofMethod (Project.of {} {}) uploadMethod .post [] = some (r, w') ∧
        r.parameters.map (fun s => (s.name, s.location)) = [("id", some .path)] ∧
        r.formFields.map (fun s => (s.name, s.location)) = [("picture", some .form)] ∧
        r.encoding = .formData ∧ Consistent (Project.of {} {}) uploadMethod .post r := by
  have hends : ∀ param ∈ uploadMethod.parameters,
      Call.Ends (Project.of {} {}) ⟨[], param.typeText⟩ := by
    obtain ⟨hint, hfile, hvoid⟩ := resolve_upload ⟨.request, .body⟩
    simp only [uploadMethod, List.forall_mem_cons]
    exact ⟨Schema.ends_of_resolve (c := ⟨[], "int"⟩) hint,
      Schema.ends_of_resolve (c := ⟨[], "file"⟩) hfile,
      Schema.ends_of_resolve (c := ⟨[], "void"⟩) hvoid, List.forall_mem_nil _⟩
  obtain ⟨hfound, hconsistent⟩ := ofMethod_consistent (Project.of {} {}) uploadMethod .post []
  obtain ⟨r, w', h⟩ := hfound hends
  have hgiven := given?_eq_some (steady_ofMethod uploadMethod .post) h
  rw [given?_ofMethod_upload, Option.some.injEq] at hgiven
  refine ⟨hends, r, w', h, ?_, ?_, ?_, hconsistent r w' h⟩
  all_goals
    rw [← hgiven]
    decide

end Request

end EndpointDocs

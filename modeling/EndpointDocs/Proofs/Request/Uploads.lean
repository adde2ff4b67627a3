import EndpointDocs.Proofs.Request.Placement
import EndpointDocs.Proofs.Request.Unresolved

namespace EndpointDocs.Request

open Noting

variable {p : Project} {doc : DocComment} {m : MethodDecl} {method : HttpMethod}
  {param : ParameterDecl} {ps : List ParameterDecl} {s t : Schema}

private theorem isObject_of_isUpload (h : s.IsUpload) : s.isObject = false := by
  rcases h with h | ⟨h, _⟩ <;> simp [Schema.isObject, h]

private theorem isFile_of_isUpload (h : s.IsUpload) : isFile s = true := by
  rcases h with h | ⟨_, items, hitems, h⟩ <;> simp [isFile, *]

/-- An upload outside of the form was placed there, or it is an array that was not placed. -/
theorem place?_of_upload (hbody : method.allowsBody = true)
    (hs : s ∈ entriesFor p doc method param t) (hform : s.location ≠ some .form)
    (hplace : place? param ≠ some .body) (hupload : s.IsUpload) :
    place? param = some .path ∨ place? param = some .query ∨ place? param = some .header ∨
      place? param = none ∧ s.dataType = .array := by
  rw [(location_of_mem_entriesFor hs).1] at hform
  cases hplaced : place? param with
  | some location =>
    rw [hplaced] at hform hplace
    cases location <;> simp_all [locate]
  | none =>
    refine .inr (.inr (.inr ⟨rfl, ?_⟩))
    have hscalar : t.isObject = false ∧ t.dataType ≠ .file := by
      simpa [hplaced, locate, hbody, not_or] using hform
    have hentry : s = describe p doc param ((placement? param).map Prod.snd)
        (locate (place? param) t method) t := by
      simpa [entriesFor, hscalar.1] using hs
    obtain ⟨_, _, _, htype, _⟩ := describe_frame p doc param
      ((placement? param).map Prod.snd) (locate (place? param) t method) t
    rw [← hentry] at htype
    rcases hupload with hfile | ⟨harray, _⟩
    · exact absurd (htype.symm.trans hfile) hscalar.2
    · exact harray

/-- Whether the parameter brings an upload into the form: an annotation places it there, or it is a
single file that neither an annotation places nor the framework provides. -/
def BringsUpload (p : Project) (param : ParameterDecl) : Prop :=
  ∃ s, schemaOf? p .parameter param = some (some s) ∧
    (place? param = some .form ∧ s.IsUpload ∨
      place? param = none ∧ isProvided p param = false ∧ s.dataType = .file)

private theorem upload_of_bringsUpload (doc : DocComment) (hbody : method.allowsBody = true)
    (h : BringsUpload p param) :
    ∃ s, entriesOf? p doc method param = some [s] ∧ inForm s = true ∧ s.IsUpload := by
  obtain ⟨t, ht, hplaced⟩ := h
  have hupload : t.IsUpload := hplaced.elim (·.2) fun h => .inl h.2.2
  have hlocate : locate (place? param) t method = .form := by
    rcases hplaced with ⟨hplace, _⟩ | ⟨hplace, _, hfile⟩ <;> simp [locate, *]
  have hown : place? param ≠ some .body ∧ isProvided p param = false := by
    rcases hplaced with ⟨hplace, _⟩ | ⟨hplace, hprovided, _⟩
    · simp [isProvided, hplace]
    · exact ⟨by simp [hplace], hprovided⟩
  obtain ⟨_, hlocation, _, htype, hitems⟩ := describe_frame p doc param
    ((placement? param).map Prod.snd) .form t
  refine ⟨_, ?_, decide_eq_true hlocation, ?_⟩
  · rw [entriesOf?_of_schema hown.1 hown.2 ht]
    simp only [entriesFor, hlocate, isObject_of_isUpload hupload]
    rfl
  · rw [Schema.IsUpload, htype, hitems]
    exact hupload

private theorem mem_parts {parts : List (List Schema)} {entries : List Schema}
    (h : ps.mapM (entriesOf? p doc method) = some parts) (hparam : param ∈ ps)
    (hentries : entriesOf? p doc method param = some entries) : entries ∈ parts := by
  obtain ⟨before, after, rfl⟩ := List.append_of_mem hparam
  obtain ⟨first, own, rest, _, hown, _, rfl⟩ := exists_mapM_append h
  obtain rfl : entries = own := Option.some.inj (hentries.symm.trans hown)
  simp

/-- In a request that allows a body, uploads outside of the form come from parameters that an
annotation places there, or they are arrays that no annotation places; and one that is brought into
the form, without another body, makes the request form data. -/
theorem ofMethod_uploads (p : Project) (m : MethodDecl) (hbody : method.allowsBody = true)
    (w : List Warning) :
    ((∀ param ∈ m.parameters, Call.Ends p ⟨[], param.typeText⟩) →
        ∃ r w', ofMethod p m method w = some (r, w')) ∧
      ∀ r w', ofMethod p m method w = some (r, w') →
        (∀ s ∈ r.parameters, s.IsUpload → ∃ param ∈ m.parameters, ∃ entries,
          entriesOf? p m.doc method param = some entries ∧ s ∈ entries ∧
            (place? param = some .path ∨ place? param = some .query ∨
              place? param = some .header ∨ place? param = none ∧ s.dataType = .array)) ∧
        (¬TakesBody p m → (∃ param ∈ m.parameters, BringsUpload p param) →
          r.encoding = .formData) := by
  refine ⟨fun hends => ?_, fun r w' h => ?_⟩
  · obtain ⟨⟨r, w'⟩, h⟩ := answers_ofMethod method hends w
    exact ⟨r, w', h⟩
  obtain ⟨parts, body, hparts, hown, rfl⟩ := exists_parts h
  constructor
  · intro s hs hupload
    obtain ⟨hmem, hform⟩ := List.mem_filter.mp (assemble_parameters _ _ ▸ hs)
    obtain ⟨param, hparam, entries, hentries, hs⟩ := exists_parameter hparts hmem
    obtain ⟨hplace, _, t, _, hs'⟩ := mem_entriesOf? hentries hs
    have houtside : s.location ≠ some .form := by simpa [inForm] using hform
    exact ⟨param, hparam, entries, hentries, hs, place?_of_upload hbody hs' houtside hplace hupload⟩
  · rintro htakes ⟨param, hparam, hbrings⟩
    obtain ⟨s, hentries, hform, hupload⟩ := upload_of_bringsUpload m.doc hbody hbrings
    have hnone : body = none := by simpa using mt (isSome_iff_takesBody hown).mp htakes
    have hmem : s ∈ parts.flatten.filter inForm :=
      List.mem_filter.mpr ⟨List.mem_flatten.mpr ⟨[s], mem_parts hparts hparam hentries,
        List.mem_singleton_self s⟩, hform⟩
    have hfiles : (parts.flatten.filter inForm).any isFile = true :=
      List.any_eq_true.mpr ⟨s, hmem, isFile_of_isUpload hupload⟩
    simp only [assemble, add, encodingOf, hnone, List.nil_append, hfiles]
    rfl

def pagesPart : ParameterDecl :=
  { name := "pages", typeText := "file[]", annotations := [{ name := "RequestPart" }] }

def scanMethod : MethodDecl :=
  { name := "scan", parameters := [pagesPart, queried "cover" "file"] }

private theorem resolve_scan (u : Usage) :
    Schema.resolve (Project.of {} {}) u [] "file[]" [] =
        some (some (.array (.scalar .file)), []) ∧
      Schema.resolve (Project.of {} {}) u [] "file" [] = some (some (.scalar .file), []) := by
  have hfile := (resolve_upload u).2.1
  exact ⟨Schema.resolve_of_list (by decide) (by decide) hfile, hfile⟩

/-- A part of several files makes form data, beside a file in the query. -/
theorem ofMethod_uploads_scan :
    HttpMethod.post.allowsBody = true ∧ ¬TakesBody (Project.of {} {}) scanMethod ∧
      BringsUpload (Project.of {} {}) pagesPart ∧
      ∃ r w', ofMethod (Project.of {} {}) scanMethod .post [] = some (r, w') ∧
        r.encoding = .formData ∧
        ∀ s ∈ r.parameters, s.IsUpload → ∃ param ∈ scanMethod.parameters, ∃ entries,
          entriesOf? (Project.of {} {}) {} .post param = some entries ∧ s ∈ entries ∧
            (place? param = some .path ∨ place? param = some .query ∨
              place? param = some .header ∨ place? param = none ∧ s.dataType = .array) := by
  obtain ⟨hpages, hcover⟩ := resolve_scan ⟨.request, .parameter⟩
  have hends : ∀ param ∈ scanMethod.parameters,
      Call.Ends (Project.of {} {}) ⟨[], param.typeText⟩ := by
    simp only [scanMethod, List.forall_mem_cons]
    exact ⟨Schema.ends_of_resolve (c := ⟨[], "file[]"⟩) hpages,
      Schema.ends_of_resolve (c := ⟨[], "file"⟩) hcover, List.forall_mem_nil _⟩
  have hplaces : ∀ param ∈ scanMethod.parameters, place? param ≠ some .body := by decide
  have htakes : ¬TakesBody (Project.of {} {}) scanMethod := by
    rintro ⟨param, hparam, hplace, _⟩
    exact hplaces param hparam hplace
  have hbrings : BringsUpload (Project.of {} {}) pagesPart :=
    ⟨.array (.scalar .file), congrArg (Option.map Prod.fst) hpages,
      .inl ⟨by decide, .inr ⟨rfl, _, rfl, rfl⟩⟩⟩
  have hallows : HttpMethod.post.allowsBody = true := rfl
  obtain ⟨hfound, hplaced⟩ := ofMethod_uploads (Project.of {} {}) scanMethod hallows []
  obtain ⟨r, w', h⟩ := hfound hends
  obtain ⟨huploads, hencoding⟩ := hplaced r w' h
  exact ⟨rfl, htakes, hbrings, r, w', h,
    hencoding htakes ⟨pagesPart, List.mem_cons_self, hbrings⟩, huploads⟩

/-- A single file that an annotation puts into the query is no form data. -/
theorem queried_file_stays_out_of_form :
    HttpMethod.post.allowsBody = true ∧
      ∃ r w', ofMethod (Project.of {} {}) (searchBy (queried "cover" "file")) .post [] =
          some (r, w') ∧
        r.parameters.map (fun s => (s.name, s.dataType, s.location)) =
          [("cover", .file, some .query)] ∧ r.body.isNone = true ∧ r.encoding = .form := by
  have hresolved := (resolve_scan ⟨.request, .parameter⟩).2
  have hschema : schemaOf? (Project.of {} {}) .parameter (queried "cover" "file") =
      some (some (.scalar .file)) := congrArg (Option.map Prod.fst) hresolved
  have hentries : entriesOf? (Project.of {} {}) {} .post (queried "cover" "file") = _ :=
    entriesOf?_of_schema (by decide) (by decide) hschema
  obtain ⟨w', h⟩ := ofMethod_searchBy (by decide) hentries
  exact ⟨rfl, _, w', h, by decide, by decide, by decide⟩

end EndpointDocs.Request

import EndpointDocs.Proofs.Publication.FileNames

namespace EndpointDocs.Publication

open Documentation

variable {root : String} {format : Format} {d d' : Disk} {e e' : Endpoint} {es : List Endpoint}
  {place : Place} {p : Project}

theorem textAt?_write {path text : String} (h : d.write path text = .ok d') (place : Place) :
    d'.textAt? place = if Place.ofPath path = place then some text else d.textAt? place := by
  unfold Disk.write at h
  simp only at h
  split at h
  · cases h
  · split at h
    · cases h
    · cases h
      exact Disk.find?_put _ _ _ _

theorem textAt?_publish (h : publish root format d e = .ok d') (place : Place) :
    d'.textAt? place =
      if documentPlace root format e = place then some (format.render e.write)
      else d.textAt? place := by
  unfold publish at h
  simp only at h
  split at h
  · next written hwritten =>
    cases h
    exact textAt?_write hwritten place
  · cases h

theorem publishAll_append (root : String) (format : Format) (d : Disk) (es : List Endpoint)
    (e : Endpoint) :
    publishAll root format d (es ++ [e]) =
      let before := publishAll root format d es
      match publish root format before.2 e with
      | .ok d' => ({ before.1 with
          published := before.1.published ++ [documentPath root format e] }, d')
      | .error f => ({ before.1 with
          failures := before.1.failures ++ [(e.key, f.message)] }, before.2) := by
  rw [publishAll, List.foldl_append]
  rfl

theorem isSuccess_append (h : (publishAll root format d (es ++ [e])).1.isSuccess = true) :
    (publishAll root format d es).1.isSuccess = true ∧
      ∃ d', publish root format (publishAll root format d es).2 e = .ok d' ∧
        publishAll root format d (es ++ [e]) =
          ({ (publishAll root format d es).1 with
              published := (publishAll root format d es).1.published ++
                [documentPath root format e] }, d') := by
  have hlast := publishAll_append root format d es e
  simp only at hlast
  split at hlast
  · next d' hd' =>
    rw [hlast] at h
    exact ⟨h, d', hd', hlast⟩
  · rw [hlast] at h
    simp [Report.isSuccess] at h

/-- A batch without failures has published each of its endpoints, and at each place lies the
document that came last. -/
theorem publishAll_of_isSuccess (h : (publishAll root format d es).1.isSuccess = true) :
    (publishAll root format d es).1.published = es.map (documentPath root format) ∧
      ∀ place, (publishAll root format d es).2.textAt? place =
        ((es.reverse.find? (documentPlace root format · = place)).map
          fun e => format.render e.write).or (d.textAt? place) := by
  induction es using List.reverseRecOn with
  | nil => exact ⟨rfl, fun place => rfl⟩
  | append_singleton es e ih =>
    obtain ⟨hbefore, d', hd', hlast⟩ := isSuccess_append h
    obtain ⟨hpublished, htexts⟩ := ih hbefore
    rw [hlast]
    refine ⟨by rw [hpublished, List.map_append, List.map_singleton], fun place => ?_⟩
    rw [textAt?_publish hd', htexts, List.reverse_append, List.reverse_singleton,
      List.singleton_append, List.find?_cons]
    by_cases hplace : documentPlace root format e = place <;> simp [hplace]

/-- Files lie two steps below the root alone, and there are no directories without files. -/
structure OnlyDocuments (root : String) (d : Disk) : Prop where
  directories : d.directories = []
  files : ∀ f ∈ d.files, f.1.length = (Place.ofPath root).length + 2

private theorem length_documentPlace (root : String) (format : Format) (e : Endpoint) :
    (documentPlace root format e).length = (Place.ofPath root).length + 2 := by
  rw [documentPlace_eq, List.length_append]
  rfl

theorem mem_of_find? {text : String} {files : List (Place × String)}
    (h : Disk.find? place files = some text) : (place, text) ∈ files := by
  induction files with
  | nil => cases h
  | cons f files ih =>
    rw [Disk.find?] at h
    split at h
    · next hf =>
      cases h
      cases hf
      exact List.mem_cons_self
    · exact List.mem_cons_of_mem f (ih h)

theorem mem_put {text : String} {files : List (Place × String)} {f : Place × String}
    (h : f ∈ Disk.put place text files) : f = (place, text) ∨ f ∈ files := by
  induction files with
  | nil => exact .inl (List.mem_singleton.mp h)
  | cons g files ih =>
    rw [Disk.put] at h
    split at h
    · exact (List.mem_cons.mp h).imp_right (List.mem_cons_of_mem g)
    · rcases List.mem_cons.mp h with rfl | h
      · exact .inr List.mem_cons_self
      · exact (ih h).imp_right (List.mem_cons_of_mem g)

/-- Of two places with as many steps neither lies below the other. -/
theorem not_isBelow {q : Place} (h : place.length = q.length) : place.isBelow q = false := by
  rw [← Bool.not_eq_true, Place.isBelow, Bool.and_eq_true, decide_eq_true_eq]
  rintro ⟨hbelow, hne⟩
  exact hne ((List.isPrefixOf_iff_prefix.mp hbelow).eq_of_length h.symm).symm

private theorem OnlyDocuments.obstacle?_eq_none (h : OnlyDocuments root d)
    (hlength : place.length = (Place.ofPath root).length + 2) : d.obstacle? place = none := by
  have hfile : d.isFileAt place.dropLast = false := by
    rw [← Bool.not_eq_true, Disk.isFileAt, Option.isSome_iff_exists]
    rintro ⟨text, htext⟩
    have hshort := h.files _ (mem_of_find? htext)
    rw [List.length_dropLast, hlength] at hshort
    omega
  have hcut : (d.files.any fun f => place.isBelow f.1) = false := by
    rw [List.any_eq_false]
    intro f hf
    rw [not_isBelow (hlength.trans (h.files f hf).symm)]
    exact Bool.false_ne_true
  have hdirectory : d.isDirectoryAt place = false := by
    have hne : place ≠ [] := by
      rintro rfl
      cases hlength
    have hbelow : (d.files.any fun f => f.1.isBelow place) = false := by
      rw [List.any_eq_false]
      intro f hf
      rw [not_isBelow ((h.files f hf).trans hlength.symm)]
      exact Bool.false_ne_true
    rw [Disk.isDirectoryAt, h.directories, hbelow, decide_eq_false hne]
    rfl
  rw [Disk.obstacle?, hfile, hcut, hdirectory]
  rfl

theorem write_eq_ok {path text : String} (hend : path.toList.getLast? ≠ some '/')
    (hfree : d.obstacle? (Place.ofPath path) = none) :
    d.write path text = .ok { d with files := Disk.put (Place.ofPath path) text d.files } := by
  rw [Disk.write, if_neg hend]
  simp only [hfree]
  rfl

theorem OnlyDocuments.put (h : OnlyDocuments root d)
    (hlength : place.length = (Place.ofPath root).length + 2) (text : String) :
    OnlyDocuments root { d with files := Disk.put place text d.files } where
  directories := h.directories
  files := by
    intro f hf
    rcases mem_put hf with rfl | hf
    · exact hlength
    · exact h.files f hf

theorem OnlyDocuments.publish (h : OnlyDocuments root d) (format : Format) (e : Endpoint) :
    ∃ d', publish root format d e = .ok d' ∧ OnlyDocuments root d' := by
  have hlength := length_documentPlace root format e
  have hend : (documentPath root format e).toList.getLast? ≠ some '/' :=
    (isName_fileName format e).getLast?_join _
  refine ⟨_, ?_, h.put hlength (format.render e.write)⟩
  unfold Publication.publish
  simp only [write_eq_ok hend (h.obstacle?_eq_none hlength)]
  rfl

/-- Nothing keeps documents from being published where nothing lies yet. -/
theorem isSuccess_publishAll (root : String) (format : Format) (es : List Endpoint) :
    (publishAll root format {} es).1.isSuccess = true ∧
      OnlyDocuments root (publishAll root format {} es).2 := by
  induction es using List.reverseRecOn with
  | nil => exact ⟨rfl, rfl, List.forall_mem_nil _⟩
  | append_singleton es e ih =>
    obtain ⟨hsuccess, honly⟩ := ih
    obtain ⟨d', hd', honly'⟩ := honly.publish format e
    rw [publishAll_append]
    simp only [hd']
    exact ⟨hsuccess, honly'⟩

/-- Every path that is documented starts with a slash. -/
theorem head?_path {s : Summary} {w v : List Warning} (h : ofProject p w = some (s, v))
    (he : e ∈ s.endpoints) : e.path.toList.head? = some '/' := by
  obtain ⟨found, hfound, hkept⟩ := exists_found h
  have hrequest : e.request ∈ found.flatten.map (·.request) := by
    rw [← mem_distinct_iff, ← hkept]
    exact List.mem_map_of_mem he
  rw [map_request_flatten hfound, List.mem_flatMap] at hrequest
  obtain ⟨t, -, ht⟩ := hrequest
  unfold requestsOf at ht
  split at ht
  · obtain ⟨m, -, hm⟩ := List.mem_flatMap.mp ht
    unfold requestsOfMethod at hm
    split at hm
    · cases hm
    · obtain ⟨path, -, hpath⟩ := List.mem_map.mp hm
      obtain ⟨-, hcomposed⟩ := Prod.mk.inj hpath
      rw [← hcomposed, Route.compose, String.toList_append]
      rfl
  · cases ht

/-- A batch of the endpoints of a project that has been published without failures. At the place of
each endpoint lies the document of the last one that has the place, and two endpoints have one place
exactly if the method, the directory and the words of the path are the same. So each endpoint has a
document of its own if no two of them are alike in all three. -/
theorem publishAll_documents {s : Summary} {w v : List Warning}
    (h : ofProject p w = some (s, v)) (root : String) (format : Format) (d : Disk)
    (hok : (publishAll root format d s.endpoints).1.isSuccess = true) :
    (publishAll root format d s.endpoints).1.published =
        s.endpoints.map (documentPath root format) ∧
    (∀ e ∈ s.endpoints, ∀ e' ∈ s.endpoints,
      documentPath root format e = documentPath root format e' ↔
        e.method = e'.method ∧ directory e.category = directory e'.category ∧
          words e.path.toList = words e'.path.toList) ∧
    (∀ e ∈ s.endpoints,
      (publishAll root format d s.endpoints).2.textAt? (documentPlace root format e) =
        (s.endpoints.reverse.find? fun e' =>
          documentPath root format e' = documentPath root format e).map
            fun e' => format.render e'.write) ∧
    ((∀ e ∈ s.endpoints, ∀ e' ∈ s.endpoints, e.request ≠ e'.request →
        documentPath root format e ≠ documentPath root format e') →
      ∀ e ∈ s.endpoints,
        (publishAll root format d s.endpoints).2.textAt? (documentPlace root format e) =
          some (format.render e.write)) := by
  obtain ⟨hpublished, htexts⟩ := publishAll_of_isSuccess hok
  have hlast : ∀ e ∈ s.endpoints,
      (publishAll root format d s.endpoints).2.textAt? (documentPlace root format e) =
        (s.endpoints.reverse.find? fun e' =>
          documentPath root format e' = documentPath root format e).map
            fun e' => format.render e'.write := by
    intro e he
    have hsome : (s.endpoints.reverse.find? fun e' =>
        documentPath root format e' = documentPath root format e).isSome := by
      rw [List.find?_isSome]
      exact ⟨e, List.mem_reverse.mpr he, decide_eq_true rfl⟩
    obtain ⟨e', he'⟩ := Option.isSome_iff_exists.mp hsome
    rw [htexts]
    simp only [← documentPath_eq_iff_place]
    rw [he', Option.map_some, Option.some_or]
  refine ⟨hpublished, ?_, hlast, ?_⟩
  · intro e he e' he'
    exact documentPath_eq_iff (head?_path h he) (head?_path h he')
  · intro hone e he
    rw [hlast e he]
    cases hfound : s.endpoints.reverse.find? fun e' =>
        documentPath root format e' = documentPath root format e with
    | none =>
      exact absurd (decide_eq_true rfl) (List.find?_eq_none.mp hfound e (List.mem_reverse.mpr he))
    | some e' =>
      have he' : e' ∈ s.endpoints := List.mem_reverse.mp (List.mem_of_find?_eq_some hfound)
      have hpath : documentPath root format e' = documentPath root format e := by
        simpa using List.find?_some hfound
      have hrequest : e'.request = e.request := by
        by_contra hne
        exact hone e' he' e he hne hpath
      have hnodup : (s.endpoints.map (·.request)).Nodup := by
        obtain ⟨found, -, hkept⟩ := exists_found h
        rw [hkept]
        exact nodup_distinct _
      rw [Option.map_some, List.inj_on_of_nodup_map hnodup he' he hrequest]

/-- A controller that answers at two paths. -/
def usersProject (one other : String) : Project :=
  let users := { TypeDecl.named "Users" .record with
    methods := [getting "one" one, getting "other" other]
    annotations := [{ name := "RestController" }] }
  Project.of (Catalog.insertAll {} [users]) {}

def usersEndpoint (path : String) : Endpoint :=
  { path, category := some "users", bodyEncoding := some .raw }

def users (one other : String) : TypeDecl :=
  getter "Users" .record "RestController" [("one", one), ("other", other)]

private theorem endpoints_usersProject {one other : String} (hne : one ≠ other)
    (hpaths : ∀ path ∈ [one, other], Text.content? path = some path)
    (hgotten : [gotten (users one other) "one" one, gotten (users one other) "other" other] =
      [usersEndpoint one, usersEndpoint other]) :
    (ofProject (usersProject one other) []).map (·.1.endpoints) =
      some [usersEndpoint one, usersEndpoint other] := by
  have htypes : inOrder (usersProject one other).catalog.types = [users one other] := rfl
  have husers : endpointsOf? (usersProject one other) (users one other) =
      some [usersEndpoint one, usersEndpoint other] := by
    rw [← hgotten]
    exact endpointsOf?_getter rfl rfl (by decide) (by simpa using hpaths)
  have hrequests : ([usersEndpoint one, usersEndpoint other].map (·.request)).Nodup := by
    simp [Endpoint.request, usersEndpoint, hne]
  rw [endpoints_ofProject, htypes, List.mapM_cons, husers]
  exact congrArg some (distinct_of_nodup hrequests)

/-- Two paths of different words lead to two documents. -/
theorem publishAll_documents_users :
    ∃ s v, ofProject (usersProject "/users/{id}" "/users/all") [] = some (s, v) ∧
      (publishAll "docs" .json {} s.endpoints).1.published =
        ["docs/users/GET_users_id.json", "docs/users/GET_users_all.json"] ∧
      ∀ e ∈ s.endpoints,
        (publishAll "docs" .json {} s.endpoints).2.textAt? (documentPlace "docs" .json e) =
          some (Format.json.render e.write) := by
  have hrun : (ofProject (usersProject "/users/{id}" "/users/all") []).map (·.1.endpoints) =
      some [usersEndpoint "/users/{id}", usersEndpoint "/users/all"] :=
    endpoints_usersProject (by decide) (by decide) rfl
  obtain ⟨⟨s, v⟩, h, hs⟩ := Option.map_eq_some_iff.mp hrun
  simp only at hs
  have hok := (isSuccess_publishAll "docs" .json s.endpoints).1
  obtain ⟨hpublished, -, -, hown⟩ := publishAll_documents h "docs" .json {} hok
  refine ⟨s, v, h, ?_, hown ?_⟩
  · rw [hpublished, hs]
    decide
  · rw [hs]
    decide

/-- Two paths of the same words lead to one document, which is reported as published twice. -/
theorem publishAll_overwrites :
    ∃ s v e e', ofProject (usersProject "/users/{id}" "/users/id") [] = some (s, v) ∧
      s.endpoints = [e, e'] ∧ e.request ≠ e'.request ∧
      (publishAll "docs" .json {} s.endpoints).1.isSuccess = true ∧
      documentPath "docs" .json e = documentPath "docs" .json e' ∧
      (publishAll "docs" .json {} s.endpoints).2.textAt? (documentPlace "docs" .json e) ≠
        some (Format.json.render e.write) := by
  have hrun : (ofProject (usersProject "/users/{id}" "/users/id") []).map (·.1.endpoints) =
      some [usersEndpoint "/users/{id}", usersEndpoint "/users/id"] :=
    endpoints_usersProject (by decide) (by decide) rfl
  obtain ⟨⟨s, v⟩, h, hs⟩ := Option.map_eq_some_iff.mp hrun
  simp only at hs
  have hok := (isSuccess_publishAll "docs" .json s.endpoints).1
  have hpath : documentPath "docs" .json (usersEndpoint "/users/{id}") =
      documentPath "docs" .json (usersEndpoint "/users/id") := by decide
  have hrender : Format.json.render (usersEndpoint "/users/id").write ≠
      Format.json.render (usersEndpoint "/users/{id}").write := by decide
  refine ⟨s, v, _, _, h, hs, by decide, hok, hpath, ?_⟩
  rw [(publishAll_of_isSuccess hok).2, hs, documentPlace, hpath]
  intro htext
  exact hrender (Option.some.inj htext)

end EndpointDocs.Publication

import Mathlib.Data.List.Induction
import Mathlib.Data.List.Nodup
import EndpointDocs.Documentation
import EndpointDocs.Proofs.Catalog.Search
import EndpointDocs.Proofs.Chars.Cutting
import EndpointDocs.Proofs.Resolution.Warnings

namespace EndpointDocs

open Noting

theorem HttpMethod.name_injective : Function.Injective name := by
  intro m n
  cases m <;> cases n <;> decide

namespace Endpoint

def request (e : Endpoint) : HttpMethod × String :=
  (e.method, e.path)

/-- No method has a blank in its name, so a key tells where the path begins. -/
theorem key_eq_iff {e e' : Endpoint} : e.key = e'.key ↔ e.request = e'.request := by
  have htext (e : Endpoint) : e.key.toList = e.method.name.toList ++ ' ' :: e.path.toList := by
    simp [key]
  have hblank (method : HttpMethod) : ' ' ∉ method.name.toList := by cases method <;> decide
  constructor
  · intro h
    have hcut := congrArg (fun key : String => Chars.cutAtFirst ' ' key.toList) h
    simp only [htext, Chars.cutAtFirst_append (hblank _), Option.some.injEq, Prod.mk.injEq,
      String.toList_inj] at hcut
    exact Prod.ext (HttpMethod.name_injective hcut.1) hcut.2
  · intro h
    obtain ⟨hmethod, hpath⟩ := Prod.mk.inj h
    rw [key, key, hmethod, hpath]

theorem request_corrected (e : Endpoint) (settings : Settings) :
    (e.corrected settings).request = e.request := by
  unfold corrected
  split <;> rfl

end Endpoint

namespace Documentation

variable {p : Project} {es : List Endpoint} {e : Endpoint}

theorem distinct_append (es : List Endpoint) (e : Endpoint) :
    distinct (es ++ [e]) =
      if (distinct es).any (·.request = e.request) then distinct es else distinct es ++ [e] := by
  have hkeys : (fun e' : Endpoint => decide (e'.key = e.key)) =
      fun e' => decide (e'.request = e.request) :=
    funext fun e' => decide_eq_decide.mpr Endpoint.key_eq_iff
  rw [distinct, List.foldl_append, List.foldl_cons, List.foldl_nil, hkeys]
  rfl

theorem find?_distinct (es : List Endpoint) (r : HttpMethod × String) :
    (distinct es).find? (·.request = r) = es.find? (·.request = r) := by
  induction es using List.reverseRecOn with
  | nil => rfl
  | append_singleton es e ih =>
    rw [distinct_append, List.find?_append, ← ih]
    split
    · next hany =>
      cases hfound : (distinct es).find? (·.request = r) with
      | some e' => rfl
      | none =>
        -- Nothing kept has the request `r`, so `e`, whose request is kept, has another one.
        obtain ⟨e', he', hsame⟩ := List.any_eq_true.mp hany
        have hnot := List.find?_eq_none.mp hfound e' he'
        rw [of_decide_eq_true hsame] at hnot
        rw [Option.none_or, List.find?_singleton, if_neg hnot]
    · rw [List.find?_append]

theorem nodup_distinct (es : List Endpoint) : ((distinct es).map (·.request)).Nodup := by
  induction es using List.reverseRecOn with
  | nil => exact List.nodup_nil
  | append_singleton es e ih =>
    rw [distinct_append]
    split
    · exact ih
    · next hany =>
      rw [List.map_append, List.nodup_append]
      refine ⟨ih, List.nodup_singleton _, ?_⟩
      intro r hr r' hr' heq
      obtain ⟨e', he', rfl⟩ := List.mem_map.mp hr
      obtain rfl := List.mem_singleton.mp hr'
      exact hany (List.any_eq_true.mpr ⟨e', he', decide_eq_true heq⟩)

theorem distinct_of_nodup (h : (es.map (·.request)).Nodup) : distinct es = es := by
  induction es using List.reverseRecOn with
  | nil => rfl
  | append_singleton es e ih =>
    rw [List.map_append, List.nodup_append] at h
    obtain ⟨hnodup, -, hapart⟩ := h
    rw [distinct_append, ih hnodup, if_neg]
    intro hany
    obtain ⟨e', he', hsame⟩ := List.any_eq_true.mp hany
    exact hapart _ (List.mem_map_of_mem he') _ List.mem_cons_self (of_decide_eq_true hsame)

private theorem foldl_keep (kept es : List Endpoint) :
    es.foldl (fun kept e => if kept.any (·.key = e.key) then kept else kept ++ [e]) kept =
      kept ++ (es.filter fun e => !kept.any (·.request = e.request)).eraseDupsBy
        fun e e' => e.request = e'.request := by
  induction es generalizing kept with
  | nil => exact (List.append_nil kept).symm
  | cons e es ih =>
    have hkeys : kept.any (fun e' => decide (e'.key = e.key)) =
        kept.any (fun e' => decide (e'.request = e.request)) :=
      congrArg _ (funext fun e' => decide_eq_decide.mpr Endpoint.key_eq_iff)
    rw [List.foldl_cons, hkeys, List.filter_cons]
    cases hany : kept.any (fun e' => decide (e'.request = e.request)) with
    | true => exact ih kept
    | false =>
      have hrest : (es.filter fun e' => !(kept ++ [e]).any (·.request = e'.request)) =
          (es.filter fun e' => !kept.any (·.request = e'.request)).filter
            fun e' => decide (decide (e'.request = e.request) = false) := by
        rw [List.filter_filter]
        refine List.filter_congr fun e' _ => ?_
        rw [List.any_append, List.any_cons, List.any_nil, Bool.or_false, Bool.not_or,
          Bool.and_comm]
        simp [eq_comm]
      rw [if_neg Bool.false_ne_true, ih, hrest, Bool.not_false, if_pos rfl,
        List.eraseDupsBy_cons, List.append_assoc]
      rfl

theorem distinct_eq_eraseDupsBy (es : List Endpoint) :
    distinct es = es.eraseDupsBy fun e e' => e.request = e'.request := by
  have hall : (es.filter fun e => !([] : List Endpoint).any (·.request = e.request)) = es :=
    List.filter_eq_self.mpr fun e _ => rfl
  rw [distinct, foldl_keep, List.nil_append, hall]

/-- The endpoints of a type as they are documented by themselves. -/
def endpointsOf? (p : Project) (t : TypeDecl) : Option (List Endpoint) :=
  (ofType p t []).map Prod.fst

/-- The requests that a method of a class with the path `base` answers, one for each path. -/
def requestsOfMethod (base : String) (m : MethodDecl) : List (HttpMethod × String) :=
  match Route.ofAnnotations? m.annotations with
  | none => []
  | some route => route.paths.map fun path => (route.method, Route.compose base path)

/-- The requests that a type answers, method by method. -/
def requestsOf (p : Project) (t : TypeDecl) : List (HttpMethod × String) :=
  if Controller.isController p.settings t then
    (Controller.endpointMethods p.catalog t).flatMap
      (requestsOfMethod (Route.ofClass p.catalog t))
  else []

theorem requestsOfMethod_ne_nil {m : MethodDecl} (hm : Controller.isEndpoint m = true)
    (base : String) : requestsOfMethod base m ≠ [] := by
  have hfound : (Annotations.findAny? m.annotations Route.annotationNames).isSome = true := by
    rw [Controller.isEndpoint, Bool.and_eq_true] at hm
    exact hm.2
  obtain ⟨a, ha⟩ := Option.isSome_iff_exists.mp hfound
  rw [requestsOfMethod, Route.ofAnnotations?, ha, Option.map_some]
  simp only [ne_eq, List.map_eq_nil_iff]
  split
  · exact List.cons_ne_nil _ _
  · next h => exact h

private theorem yields_ofMethod (t : TypeDecl) (base : String) (m : MethodDecl) :
    Yields (ofMethod p t base m) fun es => es.map (·.request) = requestsOfMethod base m := by
  unfold ofMethod requestsOfMethod
  cases Route.ofAnnotations? m.annotations with
  | none => exact yields_pure rfl
  | some route =>
    have hmethod : Yields (common p t m route.method) fun e => e.method = route.method := by
      refine (yields_true _).bind fun request _ => ?_
      exact (yields_true _).bind fun response _ => yields_pure rfl
    refine hmethod.bind fun e he => yields_pure ?_
    rw [List.map_map]
    refine List.map_congr_left fun path _ => ?_
    rw [Function.comp_apply, Endpoint.request_corrected, Endpoint.request, he]

private theorem yields_ofMethods (t : TypeDecl) (methods : List MethodDecl) :
    Yields (ofMethods p t methods) fun es =>
      es.map (·.request) = methods.flatMap (requestsOfMethod (Route.ofClass p.catalog t)) := by
  refine (yields_mapM fun m _ => yields_ofMethod t _ m).bind fun found hfound => yields_pure ?_
  rw [List.map_flatten, hfound, List.flatMap_def]

theorem requests_of_endpointsOf? {t : TypeDecl} (h : endpointsOf? p t = some es) :
    es.map (·.request) = requestsOf p t := by
  obtain ⟨⟨es, w⟩, hrun, rfl⟩ := Option.map_eq_some_iff.mp h
  unfold ofType at hrun
  unfold requestsOf
  split at hrun
  · next hc =>
    rw [if_pos hc]
    exact yields_ofMethods t _ hrun
  · next hc =>
    rw [if_neg hc]
    cases hrun
    rfl

/-- The types in the order in which their endpoints count. -/
def inOrder (ts : List TypeDecl) : List TypeDecl :=
  ts.filter (·.kind ≠ .interface) ++ ts.filter (·.kind = .interface)

private theorem type_of_ofType? {t : TypeDecl} {c : Controller}
    (h : Controller.ofType? p t = some c) : c.type = t := by
  unfold Controller.ofType? at h
  split at h
  · split at h
    · cases h
    · cases h
      rfl
  · cases h

theorem all_eq_filterMap (p : Project) :
    Controller.all p = (inOrder p.catalog.types).filterMap (Controller.ofType? p) := by
  have hfilter (keeps : TypeDecl → Bool) (ts : List TypeDecl) :
      (ts.filterMap (Controller.ofType? p)).filter (fun c => keeps c.type) =
        (ts.filter keeps).filterMap (Controller.ofType? p) := by
    rw [List.filter_filterMap, List.filterMap_filter]
    refine List.filterMap_congr fun t _ => ?_
    cases h : Controller.ofType? p t with
    | none => simp
    | some c => rw [Option.filter_some, type_of_ofType? h]
  unfold Controller.all inOrder
  rw [List.filterMap_append, ← hfilter, ← hfilter]

/-- A type that is no controller, or one without endpoints, documents nothing. -/
theorem endpointsOf?_eq (p : Project) (t : TypeDecl) :
    endpointsOf? p t = match Controller.ofType? p t with
      | none => some []
      | some c => (ofMethods p c.type c.methods []).map Prod.fst := by
  unfold endpointsOf? ofType Controller.ofType?
  split
  · cases Controller.endpointMethods p.catalog t <;> rfl
  · rfl

private theorem mapM_filterMap_ofType? (p : Project) (ts : List TypeDecl) :
    ((ts.filterMap (Controller.ofType? p)).mapM
        fun c => (ofMethods p c.type c.methods []).map Prod.fst).map List.flatten =
      (ts.mapM (endpointsOf? p)).map List.flatten := by
  induction ts with
  | nil => rfl
  | cons t ts ih =>
    have hcons (x : Option (List Endpoint)) (y : Option (List (List Endpoint))) :
        (do return (← x) :: (← y) : Option (List (List Endpoint))).map List.flatten =
          x.bind fun es => (y.map List.flatten).map (es ++ ·) := by
      cases x <;> cases y <;> rfl
    rw [List.filterMap_cons, List.mapM_cons, hcons, ← ih, endpointsOf?_eq]
    cases Controller.ofType? p t with
    | none =>
      rw [Option.bind_some]
      exact (congrFun Option.map_id _).symm
    | some c => simp only [List.mapM_cons, hcons]

/-- The endpoints of a project are those that its types have by themselves, the first one for each
request. -/
theorem endpoints_ofProject (p : Project) (w : List Warning) :
    (ofProject p w).map (·.1.endpoints) =
      ((inOrder p.catalog.types).mapM (endpointsOf? p)).map fun found => distinct found.flatten := by
  have hrun : (ofProject p w).map (·.1.endpoints) =
      (((Controller.all p).mapM fun c => ofMethods p c.type c.methods) w).map
        fun r => distinct r.1.flatten := by
    change Option.map _ (Option.bind _ _) = _
    rw [Option.map_bind]
    cases ((Controller.all p).mapM fun c => ofMethods p c.type c.methods) w <;> rfl
  -- The types are documented one after the other, but each as if it were the only one.
  have hsteady := map_mapM (f := fun c : Controller => ofMethods p c.type c.methods)
    (l := Controller.all p) (fun c _ => steady_ofMethods c.type c.methods) w
  have hflat : (fun r : List (List Endpoint) × List Warning => distinct r.1.flatten) =
      distinct ∘ List.flatten ∘ Prod.fst := rfl
  rw [hrun, hflat, ← Option.map_map, ← Option.map_map, hsteady, all_eq_filterMap,
    mapM_filterMap_ofType?, Option.map_map]
  rfl

theorem exists_found {w v : List Warning} {s : Summary} (h : ofProject p w = some (s, v)) :
    ∃ found, (inOrder p.catalog.types).mapM (endpointsOf? p) = some found ∧
      s.endpoints = distinct found.flatten := by
  have hrun := endpoints_ofProject p w
  rw [h, Option.map_some, eq_comm, Option.map_eq_some_iff] at hrun
  obtain ⟨found, hfound, hkept⟩ := hrun
  exact ⟨found, hfound, hkept.symm⟩

theorem map_request_flatten {ts : List TypeDecl} {found : List (List Endpoint)}
    (h : ts.mapM (endpointsOf? p) = some found) :
    found.flatten.map (·.request) = ts.flatMap (requestsOf p) := by
  induction ts generalizing found with
  | nil =>
    cases h
    rfl
  | cons t ts ih =>
    rw [List.mapM_cons] at h
    obtain ⟨es, hes, h⟩ := Option.bind_eq_some_iff.mp h
    obtain ⟨rest, hrest, h⟩ := Option.bind_eq_some_iff.mp h
    cases h
    rw [List.flatten_cons, List.map_append, ih hrest, requests_of_endpointsOf? hes,
      List.flatMap_cons]

/-- The endpoint that a type documents first for a request. -/
def endpointFor? (p : Project) (r : HttpMethod × String) (t : TypeDecl) : Option Endpoint :=
  ((endpointsOf? p t).getD []).find? (·.request = r)

theorem find?_flatten {ts : List TypeDecl} {found : List (List Endpoint)}
    (h : ts.mapM (endpointsOf? p) = some found) (r : HttpMethod × String) :
    found.flatten.find? (·.request = r) = ts.findSome? (endpointFor? p r) := by
  induction ts generalizing found with
  | nil =>
    cases h
    rfl
  | cons t ts ih =>
    rw [List.mapM_cons] at h
    obtain ⟨es, hes, h⟩ := Option.bind_eq_some_iff.mp h
    obtain ⟨rest, hrest, h⟩ := Option.bind_eq_some_iff.mp h
    cases h
    rw [List.flatten_cons, List.find?_append, ih hrest, List.findSome?_cons, endpointFor?, hes,
      Option.getD_some]
    cases es.find? (·.request = r) <;> rfl

theorem mem_distinct_iff (es : List Endpoint) (r : HttpMethod × String) :
    r ∈ (distinct es).map (·.request) ↔ r ∈ es.map (·.request) := by
  have hfound (es : List Endpoint) :
      r ∈ es.map (·.request) ↔ (es.find? (·.request = r)).isSome = true := by
    simp [List.find?_isSome]
  rw [hfound, hfound, find?_distinct]

theorem mem_inOrder {t : TypeDecl} {ts : List TypeDecl} : t ∈ inOrder ts ↔ t ∈ ts := by
  by_cases h : t.kind = .interface <;> simp [inOrder, h]

/-- The endpoints of a project are those that its types have by themselves, classes before
interfaces, less those whose request came before. So there is one endpoint for each request that
any type answers, which is that of the first class that answers it, or of the first interface if no
class does; and a type answers one request for each path of each of its endpoint methods. -/
theorem ofProject_endpoints (p : Project) (w : List Warning) :
    ((ofProject p w).map (·.1.endpoints) =
      ((inOrder p.catalog.types).mapM (endpointsOf? p)).map fun found =>
        found.flatten.eraseDupsBy fun e e' => e.request = e'.request) ∧
    (∀ t es, endpointsOf? p t = some es → es.map (·.request) = requestsOf p t) ∧
    (∀ t, ∀ m ∈ Controller.endpointMethods p.catalog t,
      requestsOfMethod (Route.ofClass p.catalog t) m ≠ []) ∧
    ∀ s v, ofProject p w = some (s, v) →
      (s.endpoints.map (·.request)).Nodup ∧
      (∀ r, r ∈ s.endpoints.map (·.request) ↔ ∃ t ∈ p.catalog.types, r ∈ requestsOf p t) ∧
      ∀ r, s.endpoints.find? (·.request = r) =
        ((p.catalog.types.filter (·.kind ≠ .interface)).findSome? (endpointFor? p r)).or
          ((p.catalog.types.filter (·.kind = .interface)).findSome? (endpointFor? p r)) := by
  refine ⟨?_, fun t es => requests_of_endpointsOf?, ?_, ?_⟩
  · rw [endpoints_ofProject]
    exact congrArg (Option.map · _) (funext fun found => distinct_eq_eraseDupsBy _)
  · intro t m hm
    exact requestsOfMethod_ne_nil (List.mem_filter.mp hm).2 _
  · intro s v h
    have hrun := endpoints_ofProject p w
    rw [h, Option.map_some, eq_comm, Option.map_eq_some_iff] at hrun
    obtain ⟨found, hfound, hkept⟩ := hrun
    rw [← hkept]
    refine ⟨nodup_distinct _, fun r => ?_, fun r => ?_⟩
    · simp only [mem_distinct_iff, map_request_flatten hfound, List.mem_flatMap, mem_inOrder]
    · rw [find?_distinct, find?_flatten hfound, inOrder, List.findSome?_append]

/-- A method that is mapped to `path` and neither takes nor returns anything. -/
def getting (name path : String) : MethodDecl :=
  { name, annotations := [{ name := "GetMapping", attributes := [("value", [path])] }] }

section

variable {p : Project} {t : TypeDecl} (name path : String)

/-- What such a method of `t` documents. -/
def gotten (t : TypeDecl) (name path : String) : Endpoint :=
  { path := Route.compose "" path
    category := some (Heading.category (getting name path) t)
    deprecated := Heading.isDeprecated (getting name path) t
    bodyEncoding := some .raw }

theorem request_gotten : (gotten t name path).request = (.get, Route.compose "" path) :=
  rfl

private theorem find?_getting {other : String} (h : TypeText.shortName other ≠ "GetMapping") :
    Annotations.find? (getting name path).annotations other = none := by
  have hshort : TypeText.shortName "GetMapping" = "GetMapping" := by decide
  have hother : ¬ "GetMapping" = TypeText.shortName other := fun heq => h heq.symm
  simp [Annotations.find?, getting, Annotation.is, Annotation.shortName, hshort, hother]

private theorem ofAnnotations?_getting (hpath : Text.content? path = some path) :
    Route.ofAnnotations? (getting name path).annotations = some ⟨.get, [path]⟩ := by
  have hrequest : Annotations.find? (getting name path).annotations "RequestMapping" = none :=
    find?_getting name path (by decide)
  have hget : Annotations.find? (getting name path).annotations "GetMapping" =
      some { name := "GetMapping", attributes := [("value", [path])] } := by
    simp [Annotations.find?, getting, Annotation.is, Annotation.shortName]
  have hshort : TypeText.shortName "GetMapping" = "GetMapping" := by decide
  simp [Route.ofAnnotations?, Annotations.findAny?, Route.annotationNames, hrequest, hget,
    Route.methodOf, Route.pathsOf, Annotation.shortName, hshort, Annotation.values,
    OrderedMap.get?, List.lookup_cons, hpath]

private theorem isEndpoint_getting (hpath : Text.content? path = some path) :
    Controller.isEndpoint (getting name path) = true := by
  have h := congrArg Option.isSome (ofAnnotations?_getting name path hpath)
  rw [Route.ofAnnotations?, Option.isSome_map] at h
  rw [Controller.isEndpoint, h]
  rfl

private theorem common_getting :
    common p t (getting name path) .get = pure { gotten t name path with path := "" } := by
  have hsummary : Heading.summary? (getting name path) = none := by
    rw [Heading.summary?, find?_getting name path (by decide)]
    rfl
  have hdescription : Heading.description? (getting name path) = none := by
    have hnone : Text.content? (getting name path).signature = none :=
      (by decide : Text.content? "" = none)
    rw [Heading.description?, hnone]
    rfl
  have htags : Heading.tags (getting name path) = [] := rfl
  have hrequest : Request.ofMethod p (getting name path) .get = pure { encoding := .raw } := rfl
  have hresponse : Response.ofMethod p (getting name path) = pure none := by
    have hvoid : TypeText.isVoid (Text.trim "") = true := by decide
    have hlinked : (Response.linkedType? (getting name path).doc).getD
        (getting name path).returnType = "" := rfl
    have hnone : Response.typeFor? p "" = none := by rw [Response.typeFor?, if_pos hvoid]
    unfold Response.ofMethod
    rw [hlinked, hnone]
  rw [common, hsummary, hdescription, htags, hrequest, hresponse, pure_bind, pure_bind]
  simp only [gotten, List.eraseDups_nil]

private theorem ofMethod_getting (hplain : p.settings.endpoints = [])
    (hpath : Text.content? path = some path) :
    ofMethod p t "" (getting name path) = pure [gotten t name path] := by
  have hcorrected (e : Endpoint) : e.corrected p.settings = e := by
    rw [Endpoint.corrected, Settings.endpointOverride?, hplain]
    rfl
  rw [ofMethod, ofAnnotations?_getting name path hpath]
  simp only [common_getting, pure_bind, hcorrected, List.map_cons, List.map_nil, gotten]

end

/-- A type with one annotation and with such methods, each by its name and path. -/
def getter (name : String) (kind : TypeKind) (label : String)
    (gets : List (String × String)) : TypeDecl :=
  { TypeDecl.named name kind with
    methods := gets.map fun g => getting g.1 g.2, annotations := [{ name := label }] }

/-- A controller of such methods documents one endpoint for each of them. -/
theorem endpointsOf?_getter {p : Project} {name label : String} {kind : TypeKind}
    {gets : List (String × String)} (hplain : p.settings.endpoints = [])
    (hcontroller : Controller.isController p.settings (getter name kind label gets) = true)
    (hmapped : Annotations.find? [{ name := label }] "RequestMapping" = none)
    (hpaths : ∀ g ∈ gets, Text.content? g.2 = some g.2) :
    endpointsOf? p (getter name kind label gets) =
      some (gets.map fun g => gotten (getter name kind label gets) g.1 g.2) := by
  let t := getter name kind label gets
  have hroute : Route.ofClass p.catalog t = "" := by
    have hown : Annotations.find? t.annotations "RequestMapping" = none := hmapped
    rw [Route.ofClass]
    simp only [Catalog.ancestors_of_supertypes_eq_nil p.catalog (t := t) rfl, hown]
    rfl
  have hendpoints : Controller.endpointMethods p.catalog t = t.methods := by
    rw [Controller.endpointMethods, Catalog.allMethods_of_supertypes_eq_nil p.catalog (t := t) rfl,
      List.filter_eq_self]
    intro m hm
    obtain ⟨g, hg, rfl⟩ := List.mem_map.mp hm
    exact isEndpoint_getting g.1 g.2 (hpaths g hg)
  have hrun : t.methods.mapM (ofMethod p t "") = pure (gets.map fun g => [gotten t g.1 g.2]) := by
    have hmethods : t.methods = gets.map fun g => getting g.1 g.2 := rfl
    rw [hmethods, List.mapM_map]
    apply mapM_eq_pure
    intro g hg
    rw [Function.comp_apply, ofMethod_getting g.1 g.2 hplain (hpaths g hg)]
  have hflat : (gets.map fun g => [gotten t g.1 g.2]).flatten =
      gets.map fun g => gotten t g.1 g.2 := by
    rw [← List.flatMap_def, ← List.map_eq_flatMap]
  have hof : ofType p t = pure (gets.map fun g => gotten t g.1 g.2) := by
    rw [ofType, if_pos hcontroller, hendpoints, ofMethods, hroute, hrun, pure_bind, hflat]
  rw [endpointsOf?, hof]
  rfl

/-- A deprecated interface and a class that answer one request. -/
def sharedProject : Project :=
  let promise := { TypeDecl.named "Promise" .interface with
    methods := [getting "both" "/a", getting "only" "/b"], annotations := [{ name := "Deprecated" }] }
  let controller := { TypeDecl.named "Ctl" .record with
    methods := [getting "both" "/a"], annotations := [{ name := "RestController" }] }
  Project.of (Catalog.insertAll {} [promise, controller]) {}

/-- The request that both answer is documented once, as that of the class. -/
theorem ofProject_endpoints_shared :
    ∃ s v, ofProject sharedProject [] = some (s, v) ∧
      s.endpoints.map (·.request) = [(.get, "/a"), (.get, "/b")] ∧
      s.endpoints.map (·.deprecated) = [false, true] ∧
      (s.endpoints.map (·.request)).Nodup ∧
      (∀ r, r ∈ s.endpoints.map (·.request) ↔
        ∃ t ∈ sharedProject.catalog.types, r ∈ requestsOf sharedProject t) ∧
      ∀ r, s.endpoints.find? (·.request = r) =
        ((sharedProject.catalog.types.filter (·.kind ≠ .interface)).findSome?
            (endpointFor? sharedProject r)).or
          ((sharedProject.catalog.types.filter (·.kind = .interface)).findSome?
            (endpointFor? sharedProject r)) := by
  let promise := getter "Promise" .interface "Deprecated" [("both", "/a"), ("only", "/b")]
  let controller := getter "Ctl" .record "RestController" [("both", "/a")]
  have htypes : inOrder sharedProject.catalog.types = [controller, promise] := rfl
  have hpromise : endpointsOf? sharedProject promise =
      some [gotten promise "both" "/a", gotten promise "only" "/b"] :=
    endpointsOf?_getter rfl (by decide) (by decide) (by decide)
  have hcontroller : endpointsOf? sharedProject controller = some [gotten controller "both" "/a"] :=
    endpointsOf?_getter rfl (by decide) (by decide) (by decide)
  have hrun : (ofProject sharedProject []).map (·.1.endpoints) =
      some [gotten controller "both" "/a", gotten promise "only" "/b"] := by
    rw [endpoints_ofProject, htypes]
    have hpaths : Route.compose "" "/a" = "/a" ∧ Route.compose "" "/b" = "/b" := by decide
    simp [hpromise, hcontroller, distinct, Endpoint.key_eq_iff, request_gotten, hpaths]
  obtain ⟨⟨s, v⟩, h, hs⟩ := Option.map_eq_some_iff.mp hrun
  have hrequests : s.endpoints.map (·.request) = [(.get, "/a"), (.get, "/b")] := by
    rw [hs]
    decide
  have hdeprecated : s.endpoints.map (·.deprecated) = [false, true] := by
    rw [hs]
    decide
  exact ⟨s, v, h, hrequests, hdeprecated, (ofProject_endpoints sharedProject []).2.2.2 s v h⟩

end Documentation

end EndpointDocs

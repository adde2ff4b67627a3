import Mathlib.Data.List.Lattice
import Mathlib.Data.List.Pairwise
import EndpointDocs.Proofs.Catalog.Hierarchy
import EndpointDocs.Proofs.Catalog.Order
import EndpointDocs.Proofs.Documentation.Collection

namespace EndpointDocs.Documentation

variable {p : Project} {d : Catalog} {es : List Endpoint} {e : Endpoint} {r : HttpMethod × String}
  {t : TypeDecl} {ts : List TypeDecl}

section

variable {α β : Type} {f : α → Option β} {l l' : List α}

theorem isSome_mapM : (l.mapM f).isSome ↔ ∀ a ∈ l, (f a).isSome := by
  induction l with
  | nil => simp
  | cons a l ih =>
    rw [List.mapM_cons, List.forall_mem_cons, ← ih]
    cases f a <;> cases l.mapM f <;> simp

theorem findSome?_eq_some_iff (hone : ∀ a ∈ l, ∀ a' ∈ l, (f a).isSome → (f a').isSome → a = a')
    {b : β} : l.findSome? f = some b ↔ ∃ a ∈ l, f a = some b := by
  constructor
  · exact List.exists_of_findSome?_eq_some
  · rintro ⟨a, ha, hb⟩
    obtain ⟨b', hb'⟩ : ∃ b', l.findSome? f = some b' := by
      rw [← Option.isSome_iff_exists, List.findSome?_isSome_iff]
      exact ⟨a, ha, Option.isSome_of_eq_some hb⟩
    obtain ⟨a', ha', hfound⟩ := List.exists_of_findSome?_eq_some hb'
    have hsame : a = a' :=
      hone a ha a' ha' (Option.isSome_of_eq_some hb) (Option.isSome_of_eq_some hfound)
    rw [hb', ← hfound, ← hsame, hb]

/-- Where at most one element gives a result, the order does not matter. -/
theorem findSome?_perm (h : l.Perm l')
    (hone : ∀ a ∈ l, ∀ a' ∈ l, (f a).isSome → (f a').isSome → a = a') :
    l.findSome? f = l'.findSome? f := by
  apply Option.ext
  intro b
  have hone' : ∀ a ∈ l', ∀ a' ∈ l', (f a).isSome → (f a').isSome → a = a' := by
    simpa only [h.mem_iff] using hone
  rw [findSome?_eq_some_iff hone, findSome?_eq_some_iff hone']
  simp only [h.mem_iff]

end

/-- A project is documented exactly if each of its types is. -/
theorem isSome_ofProject_iff {w : List Warning} :
    (ofProject p w).isSome ↔ ∀ t ∈ p.catalog.types, (endpointsOf? p t).isSome := by
  have hrun := congrArg Option.isSome (endpoints_ofProject p w)
  rw [Option.isSome_map, Option.isSome_map] at hrun
  simp only [hrun, isSome_mapM, mem_inOrder]

theorem requests_of_nodup {s : Summary} {w v : List Warning} (h : ofProject p w = some (s, v))
    (hnodup : ((inOrder p.catalog.types).flatMap (requestsOf p)).Nodup) :
    s.endpoints.map (·.request) = (inOrder p.catalog.types).flatMap (requestsOf p) := by
  obtain ⟨found, hfound, hkept⟩ := exists_found h
  rw [← map_request_flatten hfound] at hnodup ⊢
  rw [hkept, distinct_of_nodup hnodup]

private theorem endpointsOf?_over (h : d.AgreesUpToOrder p.catalog) :
    endpointsOf? (p.over d) = endpointsOf? p := by
  funext t
  rw [endpointsOf?, endpointsOf?, ofType_over h]

theorem mem_requestsOf (h : endpointFor? p r t = some e) : r ∈ requestsOf p t := by
  unfold endpointFor? at h
  have hmem := List.mem_of_find?_eq_some h
  have hsame : e.request = r := by simpa using List.find?_some h
  cases hes : endpointsOf? p t with
  | none =>
    rw [hes] at hmem
    cases hmem
  | some es =>
    rw [hes, Option.getD_some] at hmem
    rw [← requests_of_endpointsOf? hes, ← hsame]
    exact List.mem_map_of_mem hmem

/-- No two classes and no two interfaces answer one request. -/
def Undisputed (p : Project) : Prop :=
  ∀ t ∈ p.catalog.types, ∀ u ∈ p.catalog.types, (t.kind = .interface ↔ u.kind = .interface) →
    ∀ r ∈ requestsOf p t, r ∈ requestsOf p u → t = u

theorem undisputed_of_nodup (h : ((inOrder p.catalog.types).flatMap (requestsOf p)).Nodup) :
    Undisputed p := by
  intro t ht u hu _ r hr hr'
  by_contra hne
  have : Std.Symm (Function.onFun List.Disjoint (requestsOf p)) := ⟨fun _ _ => List.Disjoint.symm⟩
  exact (List.nodup_flatMap.mp h).2.forall (mem_inOrder.mpr ht) (mem_inOrder.mpr hu) hne hr hr'

private theorem Undisputed.findSome?_perm (hone : Undisputed p) {us : List TypeDecl}
    (h : p.catalog.types.Perm us) :
    (inOrder p.catalog.types).findSome? (endpointFor? p r) =
      (inOrder us).findSome? (endpointFor? p r) := by
  have hanswers {t : TypeDecl} (ht : (endpointFor? p r t).isSome) : r ∈ requestsOf p t := by
    obtain ⟨e, he⟩ := Option.isSome_iff_exists.mp ht
    exact mem_requestsOf he
  rw [inOrder, inOrder, List.findSome?_append, List.findSome?_append]
  congr 1
  · apply Documentation.findSome?_perm (h.filter _)
    intro t ht u hu het heu
    simp only [List.mem_filter, decide_eq_true_eq] at ht hu
    exact hone t ht.1 u hu.1 (iff_of_false ht.2 hu.2) r (hanswers het) (hanswers heu)
  · apply Documentation.findSome?_perm (h.filter _)
    intro t ht u hu het heu
    simp only [List.mem_filter, decide_eq_true_eq] at ht hu
    exact hone t ht.1 u hu.1 (iff_of_true ht.2 hu.2) r (hanswers het) (hanswers heu)

/-- An endpoint is kept exactly if it is the first one for its request. -/
theorem mem_distinct : e ∈ distinct es ↔ es.find? (·.request = e.request) = some e := by
  rw [← find?_distinct, Catalog.find?_key_eq_some_iff (nodup_distinct es), and_iff_left rfl]

/-- Types that have names and short names of their own may come in any order: every name means the
same, the same requests are documented, and unless two classes or two interfaces answer one request
they are documented alike. -/
theorem ofProject_perm {ds es : List TypeDecl} (hperm : ds.Perm es)
    (hnames : (ds.map (·.name)).Nodup) (hshort : (ds.map (·.normalized.shortName)).Nodup)
    (settings : Settings) (w : List Warning) :
    let p := Project.of (Catalog.ofProject ds) settings
    let q := Project.of (Catalog.ofProject es) settings
    (∀ text, p.catalog.find? text = q.catalog.find? text) ∧
    (ofProject p w).isSome = (ofProject q w).isSome ∧
    ∀ s v s' v', ofProject p w = some (s, v) → ofProject q w = some (s', v') →
      (s.endpoints.map (·.request)).Perm (s'.endpoints.map (·.request)) ∧
      (Undisputed p → s.endpoints.Perm s'.endpoints) := by
  intro p q
  have hnames' : (es.map (·.name)).Nodup := (hperm.map _).nodup_iff.mp hnames
  have hshort' : (es.map (·.normalized.shortName)).Nodup := (hperm.map _).nodup_iff.mp hshort
  have hagree : q.catalog.AgreesUpToOrder p.catalog :=
    Catalog.ofProject_agreesUpToOrder hperm.symm hnames' hshort'
  have hown : endpointsOf? q = endpointsOf? p := endpointsOf?_over (p := p) hagree
  have htypes : p.catalog.types.Perm q.catalog.types := hagree.types.symm
  refine ⟨fun text => (congrFun hagree.find? text).symm, ?_, ?_⟩
  · rw [Bool.eq_iff_iff, isSome_ofProject_iff, isSome_ofProject_iff, hown]
    simp only [htypes.mem_iff]
  · intro s v s' v' hs hs'
    obtain ⟨found, hfound, hkept⟩ := exists_found hs
    obtain ⟨found', hfound', hkept'⟩ := exists_found hs'
    rw [hown] at hfound'
    rw [hkept, hkept']
    constructor
    · apply (List.perm_ext_iff_of_nodup (nodup_distinct _) (nodup_distinct _)).mpr
      intro r
      simp only [mem_distinct_iff, map_request_flatten hfound, map_request_flatten hfound',
        List.mem_flatMap, mem_inOrder, htypes.mem_iff]
    · intro hone
      have hnodup (es : List Endpoint) : (distinct es).Nodup := (nodup_distinct es).of_map
      apply (List.perm_ext_iff_of_nodup (hnodup _) (hnodup _)).mpr
      intro e
      rw [mem_distinct, mem_distinct, find?_flatten hfound, find?_flatten hfound',
        hone.findSome?_perm htypes]

/-- A type documents nothing if it has no methods and inherits none. -/
theorem endpointsOf?_eq_nil (hown : p.catalog.byName? t.name = some t)
    (hplain : p.catalog.PlainNames) (hnone : ∀ u, p.catalog.Above t u → u.methods = []) :
    endpointsOf? p t = some [] := by
  have hmethods : p.catalog.allMethods t = [] := by
    rw [Catalog.allMethods, hnone t .refl, List.flatMap_eq_nil_iff.mpr, List.foldl_nil]
    rintro ⟨u, b⟩ hu
    have habove := ((Catalog.mem_ancestors_iff hown hplain).mp (List.mem_map_of_mem hu)).2
    exact List.map_eq_nil_iff.mpr (hnone u habove)
  have hof : Controller.ofType? p t = none := by
    rw [Controller.ofType?, Controller.endpointMethods, hmethods]
    split <;> rfl
  rw [endpointsOf?_eq, hof]

/-- The types of the library have no methods, nor has what they extend. -/
private theorem endpointsOf?_library (htypes : p.catalog.types = Catalog.libraryTypes ++ ts)
    (hnames : (p.catalog.types.map (·.name)).Nodup) (hplain : p.catalog.PlainNames) :
    ∀ t ∈ Catalog.libraryTypes, endpointsOf? p t = some [] := by
  have hown : ∀ t ∈ Catalog.libraryTypes, p.catalog.byName? t.name = some t := by
    intro t ht
    apply (Catalog.byName?_eq_some_iff hnames).mpr
    exact ⟨htypes ▸ List.mem_append_left _ ht, rfl⟩
  have hextended : ∀ t ∈ Catalog.libraryTypes, ∀ s ∈ t.supertypes, TypeText.rawName s ≠ "" ∧
      ∃ u ∈ Catalog.libraryTypes, u.name = TypeText.rawName s := by decide
  have hmethods : ∀ t ∈ Catalog.libraryTypes, t.methods = [] := by decide
  intro t ht
  refine endpointsOf?_eq_nil (hown t ht) hplain fun u hu => hmethods u ?_
  induction hu with
  | refl => exact ht
  | tail _ hnext ih =>
    obtain ⟨s, hs, hfound⟩ := hnext
    obtain ⟨hne, w, hw, hname⟩ := hextended _ ih s hs
    rw [Catalog.find?, if_neg hne, ← hname, hown w hw, Option.some_or] at hfound
    cases hfound
    exact hw

def controller (name path : String) : TypeDecl :=
  { TypeDecl.named name .record with
    methods := [getting "all" path], annotations := [{ name := "RestController" }] }

/-- Two controllers are documented alike whichever of them comes first. -/
theorem ofProject_perm_shop :
    let users := controller "shop.Users" "/users"
    let orders := controller "shop.Orders" "/orders"
    let p := Project.of (Catalog.ofProject [users, orders]) {}
    let q := Project.of (Catalog.ofProject [orders, users]) {}
    ∃ s v s' v', ofProject p [] = some (s, v) ∧ ofProject q [] = some (s', v') ∧
      s.endpoints.map (·.request) = [(.get, "/users"), (.get, "/orders")] ∧
      s.endpoints.Perm s'.endpoints ∧ p.catalog.find? "Users" = q.catalog.find? "Users" := by
  intro users orders p q
  have hnames : ([users, orders].map (·.name)).Nodup := by decide
  have hshort : ([users, orders].map (·.normalized.shortName)).Nodup := by decide
  obtain ⟨hfind, hruns, halike⟩ := ofProject_perm (.swap orders users []) hnames hshort {} []
  have htypes : p.catalog.types = Catalog.libraryTypes ++ [users, orders] :=
    Catalog.types_ofProject (by decide) (by decide)
  have hplain : p.catalog.PlainNames := by
    rw [Catalog.PlainNames, htypes]
    unfold TypeText.Mentions
    decide
  have hlibrary : ∀ t ∈ Catalog.libraryTypes, endpointsOf? p t = some [] :=
    endpointsOf?_library htypes (Catalog.nodup_types_ofProject _) hplain
  have husers : endpointsOf? p users = some [gotten users "all" "/users"] := by
    change endpointsOf? p (getter "shop.Users" .record "RestController" [("all", "/users")]) = _
    exact endpointsOf?_getter rfl (by decide) (by decide) (by decide)
  have horders : endpointsOf? p orders = some [gotten orders "all" "/orders"] := by
    change endpointsOf? p (getter "shop.Orders" .record "RestController" [("all", "/orders")]) = _
    exact endpointsOf?_getter rfl (by decide) (by decide) (by decide)
  have hboth : [users, orders].flatMap (requestsOf p) = [(.get, "/users"), (.get, "/orders")] := by
    rw [List.flatMap_cons, List.flatMap_cons, ← requests_of_endpointsOf? husers,
      ← requests_of_endpointsOf? horders]
    decide
  have hrequests (keeps : TypeDecl → Bool) : (p.catalog.types.filter keeps).flatMap (requestsOf p) =
      ([users, orders].filter keeps).flatMap (requestsOf p) := by
    rw [htypes, List.filter_append, List.flatMap_append, List.flatMap_eq_nil_iff.mpr,
      List.nil_append]
    intro t ht
    exact (requests_of_endpointsOf? (hlibrary t (List.mem_filter.mp ht).1)).symm
  have hordered : (inOrder p.catalog.types).flatMap (requestsOf p) =
      [(.get, "/users"), (.get, "/orders")] := by
    rw [inOrder, List.flatMap_append, hrequests, hrequests, ← hboth]
    exact List.append_nil _
  have hnodup : ((inOrder p.catalog.types).flatMap (requestsOf p)).Nodup := by
    rw [hordered]
    decide
  have hrun : (ofProject p []).isSome := by
    rw [isSome_ofProject_iff, htypes, List.forall_mem_append, List.forall_mem_cons,
      List.forall_mem_singleton]
    exact ⟨fun t ht => Option.isSome_of_eq_some (hlibrary t ht),
      Option.isSome_of_eq_some husers, Option.isSome_of_eq_some horders⟩
  obtain ⟨⟨s, v⟩, hs⟩ := Option.isSome_iff_exists.mp hrun
  obtain ⟨⟨s', v'⟩, hs'⟩ := Option.isSome_iff_exists.mp (hruns ▸ hrun)
  exact ⟨s, v, s', v', hs, hs', (requests_of_nodup hs hnodup).trans hordered,
    (halike s v s' v' hs hs').2 (undisputed_of_nodup hnodup), hfind "Users"⟩

end EndpointDocs.Documentation

import EndpointDocs.Proofs.Catalog.Distance
import EndpointDocs.Proofs.Catalog.Inheritance
import EndpointDocs.Proofs.Member.Renaming

namespace EndpointDocs.Catalog

open TypeText

variable {c : Catalog} {t p : TypeDecl} {s : String} {b inner : Bindings} {left : List String}
  {e f : String × Bindings} {queue queue' : List (String × Bindings)}

/-- With the values that come with them, the second reference is the first one with `b` replaced
between its brackets. -/
structure Tracks (b : Bindings) (e f : String × Bindings) : Prop where
  written : substitute f.2 f.1 = substitute b (substitute e.2 e.1)
  inside : BindsInside b (substitute e.2 e.1)

theorem Tracks.find? (h : Tracks b e f) :
    c.find? (substitute f.2 f.1) = c.find? (substitute e.2 e.1) := by
  rw [h.written]
  exact find?_of_rawName h.inside.rawName_substitute

theorem Tracks.bind (h : Tracks b e f) (hb : PutsArguments b) (parameters : List String) :
    bind parameters (arguments (substitute f.2 f.1)) =
      (bind parameters (arguments (substitute e.2 e.1))).mapEntries id (substitute b) := by
  rw [h.written, h.inside.arguments_substitute hb, bind_map]

/-- The supertypes of an ancestor can be followed further up on both sides. -/
def Leads (b : Bindings) (e : TypeDecl × Bindings) : Prop :=
  ∀ s ∈ e.1.supertypes, BoundWithin e.2 b s ∧ BindsInside b (substitute e.2 s)

private theorem Leads.tracks {u : TypeDecl} (h : Leads b (u, inner)) (hs : s ∈ u.supertypes) :
    Tracks b (s, inner) (s, inner.mapEntries id (substitute b)) where
  written := (substitute_substitute (h s hs).1).symm
  inside := (h s hs).2

/-- Searches that go in step find the same types, and the second one with `b` replaced in what the
first one binds. -/
theorem above_tracks (hb : PutsArguments b) (hqueue : List.Forall₂ (Tracks b) queue queue')
    (habove : ∀ e ∈ above c.find? left queue, Leads b e) :
    above c.find? left queue' =
      (above c.find? left queue).map fun e => (e.1, e.2.mapEntries id (substitute b)) := by
  induction left, queue using above_induction c.find? generalizing queue' with
  | nil left =>
    cases hqueue
    simp only [above, List.map_nil]
  | unknown left r d queue hfind ih =>
    cases hqueue with
    | @cons _ f _ rest hstep hrest =>
      rw [above_of_none hfind] at habove ⊢
      rw [above_of_none (hstep.find?.trans hfind), ih hrest habove]
  | enter left r d queue u hfind hmem ih =>
    cases hqueue with
    | @cons _ f _ rest hstep hrest =>
      rw [above_of_some hfind, if_pos hmem] at habove
      obtain ⟨hu, habove⟩ := List.forall_mem_cons.mp habove
      rw [above_of_some hfind, above_of_some (hstep.find?.trans hfind), if_pos hmem, if_pos hmem,
        hstep.bind hb, List.map_cons]
      refine congrArg _ (ih (List.rel_append hrest ?_) habove)
      rw [List.forall₂_map_left_iff, List.forall₂_map_right_iff, List.forall₂_same]
      exact fun s hs => hu.tracks hs
  | read left r d queue u hfind hmem ih =>
    cases hqueue with
    | @cons _ f _ rest hstep hrest =>
      rw [above_of_some hfind, if_neg hmem] at habove ⊢
      rw [above_of_some (hstep.find?.trans hfind), if_neg hmem, ih hrest habove]

/-- The names bound in `b`, the parameters of `p`, mean nothing else above `p`: an ancestor that
mentions one of them has it bound itself. In a supertype they get between the brackets only, and the
values are closed there. -/
structure Scoped (c : Catalog) (p : TypeDecl) (b : Bindings) : Prop where
  closed : ∀ v ∈ b.values, Closed 0 v.toList
  own : ∀ s ∈ p.supertypes, BindsInside b s
  supertypes : ∀ e ∈ c.ancestors p, Leads b e
  methods : ∀ e ∈ c.ancestors p, ∀ m ∈ e.1.methods, ∀ text ∈ m.texts, BoundWithin e.2 b text

/-- Without parameters there is nothing to keep apart. -/
theorem scoped_nil (c : Catalog) (p : TypeDecl) : c.Scoped p [] where
  closed := List.forall_mem_nil _
  own _ _ := .inl (List.forall_mem_nil _)
  supertypes _ _ _ _ := ⟨List.forall_mem_nil _, .inl (List.forall_mem_nil _)⟩
  methods _ _ _ _ _ _ := List.forall_mem_nil _

theorem Scoped.putsArguments {parameters : List String}
    (h : c.Scoped p (bind parameters (arguments s))) :
    PutsArguments (bind parameters (arguments s)) := by
  intro k v hv
  have hvalue : v ∈ (bind parameters (arguments s)).values := List.mem_map_of_mem hv
  obtain ⟨hne, htrimmed⟩ := isTrimmed_of_mem_arguments (mem_values_bind hvalue)
  exact ⟨hne, h.closed v hvalue, htrimmed⟩

private theorem ancestors_of_only_supertype (hown : c.byName? t.name = some t)
    (hsupertypes : t.supertypes = [s]) (hfind : c.find? s = some p) (hne : p ≠ t)
    (hcycle : t ∉ (c.ancestors p).map (·.1))
    (hscoped : c.Scoped p (bind p.parameters (arguments s))) :
    c.ancestors t = (p, bind p.parameters (arguments s)) :: (c.ancestors p).map fun e =>
      (e.1, e.2.mapEntries id (substitute (bind p.parameters (arguments s)))) := by
  have hp : p ∈ c.types := mem_of_find? hfind
  have hother : p.name ≠ t.name := fun hname =>
    hne (eq_of_byName? (byName?_of_find? hfind) hown hname)
  have hleft : p.name ∈ without t.name (c.types.map (·.name)) :=
    mem_without.mpr ⟨List.mem_map_of_mem hp, hother⟩
  have hfirst : c.find? (substitute [] s) = some p := (substitute_nil s).symm ▸ hfind
  have hunseen : t.name ∉ (above c.find? (without p.name (c.types.map (·.name)))
      (p.supertypes.map fun s => (s, []))).map (·.1.name) := by
    intro hmem
    obtain ⟨e, he, hname⟩ := List.mem_map.mp hmem
    obtain ⟨w, _, hw, _⟩ := mem_ancestors he
    have hsame : e.1 = t := eq_of_byName? (byName?_of_find? hw) hown hname
    exact hcycle (hsame ▸ List.mem_map_of_mem he)
  have hsteps : List.Forall₂ (Tracks (bind p.parameters (arguments s)))
      (p.supertypes.map fun s => (s, []))
      (p.supertypes.map fun r => (r, bind p.parameters (arguments s))) := by
    rw [List.forall₂_map_left_iff, List.forall₂_map_right_iff, List.forall₂_same]
    refine fun r hr => ⟨by rw [substitute_nil], ?_⟩
    rw [substitute_nil]
    exact hscoped.own r hr
  rw [ancestors, hsupertypes, List.map_singleton, above_of_some hfirst, if_pos hleft,
    List.nil_append, substitute_nil, without_comm, above_tracks hscoped.putsArguments hsteps,
    above_without hunseen, ancestors]
  rw [above_without hunseen]
  exact hscoped.supertypes

private theorem ancestors_of_own_supertype (hsupertypes : t.supertypes = [s])
    (hfind : c.find? s = some t) : c.ancestors t = [] := by
  have hfirst : c.find? (substitute [] s) = some t := (substitute_nil s).symm ▸ hfind
  rw [ancestors, hsupertypes, List.map_singleton, above_of_some hfirst,
    if_neg not_mem_without_self, above]

variable {m : MethodDecl}

private theorem bindMethod_bindMethod (h : ∀ text ∈ m.texts, BoundWithin inner b text) :
    bindMethod b (bindMethod inner m) = bindMethod (inner.mapEntries id (substitute b)) m := by
  change (m.mapTexts (substitute inner)).mapTexts (substitute b) = m.mapTexts (substitute _)
  rw [MethodDecl.mapTexts_mapTexts]
  exact MethodDecl.mapTexts_congr fun text htext => substitute_substitute (h text htext)

private theorem overrides_bindMethod (b : Bindings) (m i : MethodDecl) :
    (bindMethod b m).overrides (bindMethod b i) = m.overrides i :=
  MethodDecl.overrides_mapTexts

private theorem pairwise_bindMethod (b : Bindings) (ms : List MethodDecl) :
    ((ms.map (bindMethod b)).Pairwise fun m i => m.overrides i = false) ↔
      ms.Pairwise fun m i => m.overrides i = false := by
  simp only [List.pairwise_map, overrides_bindMethod]

private theorem offered_of_only_supertype (hown : c.byName? t.name = some t)
    (hsupertypes : t.supertypes = [s]) (hfind : c.find? s = some p) (hne : p ≠ t)
    (hcycle : t ∉ (c.ancestors p).map (·.1))
    (hscoped : c.Scoped p (bind p.parameters (arguments s))) :
    c.offered t = p.methods.map (bindMethod (bind p.parameters (arguments s))) ++
      (c.offered p).map (bindMethod (bind p.parameters (arguments s))) := by
  rw [offered, ancestors_of_only_supertype hown hsupertypes hfind hne hcycle hscoped,
    List.flatMap_cons, List.flatMap_map, offered, List.map_flatMap]
  refine congrArg _ (List.flatMap_congr fun e he => ?_)
  rw [List.map_map]
  refine List.map_congr_left fun m hm => ?_
  exact (bindMethod_bindMethod (hscoped.methods e he m hm)).symm

/-- A type that adds nothing to its only supertype has the methods of the supertype with the
arguments put in, but of several methods with one name and arity that the supertype declares it has
a single one. -/
theorem allMethods_of_only_supertype (hown : c.byName? t.name = some t) (hmethods : t.methods = [])
    (hsupertypes : t.supertypes = [s]) (hfind : c.find? s = some p)
    (hcycle : t ∉ (c.ancestors p).map (·.1)) :
    (c.allMethods t =
        (c.allMethods p).map (bindMethod (bind p.parameters (arguments s))) →
      p.methods.Pairwise fun m i => m.overrides i = false) ∧
    (c.Scoped p (bind p.parameters (arguments s)) →
      p.methods.Pairwise (fun m i => m.overrides i = false) →
      c.allMethods t =
        (c.allMethods p).map (bindMethod (bind p.parameters (arguments s)))) := by
  constructor
  · intro heq
    have hnew : (c.allMethods t).Pairwise fun e f => e.overrides f = false := by
      rw [allMethods_eq, hmethods]
      exact (merges_foldl [] _).pairwise_new
    rw [heq, pairwise_bindMethod] at hnew
    exact (merges_foldl _ _).pairwise_own hnew
  · intro hscoped hpairwise
    by_cases hne : p = t
    · subst hne
      rw [allMethods_eq, offered, ancestors_of_own_supertype hsupertypes hfind, hmethods]
      rfl
    · have hhead := foldl_addInherited_of_pairwise
        ((pairwise_bindMethod (bind p.parameters (arguments s)) _).mpr hpairwise)
      rw [allMethods_eq, hmethods,
        offered_of_only_supertype hown hsupertypes hfind hne hcycle hscoped,
        List.foldl_append, hhead]
      exact foldl_addInherited_mapTexts _ _

def sourceType : TypeDecl :=
  { TypeDecl.named "Source" .interface with
    parameters := ["S"], methods := [{ name := "next", returnType := "S" }] }

def readerType : TypeDecl :=
  { TypeDecl.named "Reader" .interface with
    parameters := ["T"], supertypes := ["Source<List<T>>"]
    methods := [{ name := "first", returnType := "T" }] }

def serviceType : TypeDecl :=
  { TypeDecl.named "Service" .interface with
    parameters := ["T"], supertypes := ["Reader<T>"]
    methods := [{ name := "save", returnType := "void", parameters := [⟨"entity", "T", []⟩] }] }

def userService : TypeDecl :=
  { TypeDecl.named "UserService" .interface with supertypes := ["Service<User>"] }

def services : Catalog :=
  Catalog.insertAll {} [userService, serviceType, readerType, sourceType]

private theorem ancestors_serviceType : services.ancestors serviceType =
    [(readerType, [("T", "T")]), (sourceType, [("S", "List<T>")])] := by
  have hreader : services.find? (substitute [] "Reader<T>") = some readerType := by decide
  have hsource : services.find? (substitute [("T", "T")] "Source<List<T>>") = some sourceType := by
    decide
  have hstart : services.ancestors serviceType = above services.find?
      ["UserService", "Reader", "Source"] [("Reader<T>", [])] := rfl
  have hbound : bind readerType.parameters (arguments (substitute [] "Reader<T>")) = [("T", "T")] ∧
      bind sourceType.parameters (arguments (substitute [("T", "T")] "Source<List<T>>")) =
        [("S", "List<T>")] := by decide
  have hextends : readerType.supertypes = ["Source<List<T>>"] ∧ sourceType.supertypes = [] :=
    ⟨rfl, rfl⟩
  have hnames : readerType.name = "Reader" ∧ sourceType.name = "Source" := ⟨rfl, rfl⟩
  simp [hstart, above_of_some hreader, above_of_some hsource, hbound, hextends, hnames, without,
    above]

private theorem scoped_serviceType : services.Scoped serviceType [("T", "User")] where
  closed := by
    have hword : IsWord "User" := by decide
    exact List.forall_mem_singleton.mpr hword.isArgument.closed
  own := by
    refine List.forall_mem_singleton.mpr (.inr ⟨"Reader".toList, ['T'], [], ?_⟩)
    unfold Unbound
    decide
  supertypes := by
    have hlist : BindsInside [("T", "User")] (substitute [("T", "T")] "Source<List<T>>") := by
      refine .inr ⟨"Source".toList, "List<T>".toList, [], ?_⟩
      unfold Unbound
      decide
    rw [ancestors_serviceType, List.forall_mem_cons, List.forall_mem_singleton]
    refine ⟨List.forall_mem_singleton.mpr ⟨?_, hlist⟩, List.forall_mem_nil _⟩
    exact fun k hk _ => hk
  methods := by
    rw [ancestors_serviceType, List.forall_mem_cons, List.forall_mem_singleton]
    refine ⟨fun m _ text _ k hk _ => hk, ?_⟩
    unfold BoundWithin Mentions
    decide

theorem allMethods_userService :
    services.byName? userService.name = some userService ∧
      services.find? "Service<User>" = some serviceType ∧
      userService ∉ (services.ancestors serviceType).map (·.1) ∧
      services.Scoped serviceType [("T", "User")] ∧
      services.allMethods userService =
        (services.allMethods serviceType).map (bindMethod [("T", "User")]) := by
  have hown : services.byName? userService.name = some userService := by decide
  have hfind : services.find? "Service<User>" = some serviceType := by decide
  have hcycle : userService ∉ (services.ancestors serviceType).map (·.1) := by
    rw [ancestors_serviceType]
    decide
  have hbind : bind serviceType.parameters (arguments "Service<User>") = [("T", "User")] := by
    decide
  have hmethods := (allMethods_of_only_supertype hown rfl rfl hfind hcycle).2
  rw [hbind] at hmethods
  refine ⟨hown, hfind, hcycle, scoped_serviceType, ?_⟩
  exact hmethods scoped_serviceType (List.pairwise_singleton _ _)

def findBy (parameter type path : String) : MethodDecl :=
  { name := "find", returnType := "String", parameters := [⟨parameter, type, []⟩]
    annotations := [{ name := "GetMapping", attributes := [("value", [path])] }] }

def userApi : TypeDecl :=
  { TypeDecl.named "UserApi" .interface with
    methods := [findBy "id" "int" "/by-id", findBy "mail" "String" "/by-mail"] }

def userController : TypeDecl :=
  { TypeDecl.named "UserController" .record with supertypes := ["UserApi"] }

def userApis : Catalog :=
  Catalog.insertAll {} [userApi, userController]

theorem overload_disappears :
    userApis.byName? userController.name = some userController ∧ userController.methods = [] ∧
      userController.supertypes = ["UserApi"] ∧ userApis.find? "UserApi" = some userApi ∧
      userController ∉ (userApis.ancestors userApi).map (·.1) ∧
      userApis.Scoped userApi (bind userApi.parameters (arguments "UserApi")) ∧
      userApis.allMethods userController = [findBy "id" "int" "/by-id"] ∧
      userApis.allMethods userController ≠ (userApis.allMethods userApi).map
        (bindMethod (bind userApi.parameters (arguments "UserApi"))) := by
  have hancestors : userApis.ancestors userApi = [] := ancestors_of_supertypes_eq_nil _ rfl
  have hcontroller : userApis.allMethods userController = [findBy "id" "int" "/by-id"] := by
    have hfind : userApis.find? "UserApi" = some userApi := by decide
    rw [allMethods, ancestors_of_top_supertype rfl hfind (by decide) (List.forall_mem_nil _)]
    rfl
  have hapi : (userApis.allMethods userApi).length = 2 := by
    rw [allMethods_eq, offered, hancestors]
    rfl
  refine ⟨by decide, rfl, rfl, by decide, ?_, scoped_nil _ _, hcontroller,
    fun heq => ?_⟩
  · rw [hancestors]
    exact List.not_mem_nil
  · have hlength := congrArg List.length heq
    rw [hcontroller, List.length_map, hapi] at hlength
    cases hlength

end EndpointDocs.Catalog

import EndpointDocs.Proofs.Catalog.Search
import EndpointDocs.Proofs.Member.Described
import EndpointDocs.Proofs.Resolution.Unfolding
import EndpointDocs.Proofs.Schema.Facets
import EndpointDocs.Proofs.Shape.Records

namespace EndpointDocs

open Noting Facets Shape

/-- The project with other date formats. -/
def Project.dated (p : Project) (body parameter : Option String) : Project :=
  { p with
    settings := { p.settings with bodyDateFormat := body, parameterDateFormat := parameter } }

/-- No correction of a field gives a default. -/
def Settings.GivesNoDefault (s : Settings) : Prop :=
  ∀ e ∈ s.types, ∀ c ∈ e.2.fields, Text.contentOf? c.2.default = none

/-- The two runs can only differ in facets that are left out: date formats that differ are, and so
are defaults, unless both runs set the same ones or neither sets any. -/
structure Comparable (p q : Project) (u v : Usage) (f g : Facets) : Prop where
  project : ∃ body parameter, q = p.dated body parameter
  carrier : u.carrier = v.carrier
  dates : f.dates = g.dates
  formats : f.dates = false →
    DateFormat.ofCarrier q.settings u.carrier = DateFormat.ofCarrier p.settings u.carrier
  defaults : (f.defaults = true ∧ g.defaults = true) ∨
    (f.defaults = g.defaults ∧ u.direction = v.direction) ∨
    p.settings.GivesNoDefault ∧ u.direction = .response ∧ v.direction = .response

private theorem Shape.ofText?_dated (p : Project) (body parameter : Option String) (text : String) :
    ofText? (p.dated body parameter) text = ofText? p text := by
  have hscalars : (p.dated body parameter).scalars = p.scalars := rfl
  have hcatalog : (p.dated body parameter).catalog = p.catalog := rfl
  have htype : stepType (p.dated body parameter) = stepType p := rfl
  have hstep : step (p.dated body parameter) = step p := by
    funext text
    unfold step
    rw [hscalars, hcatalog, htype]
  rw [ofText?, ofText?, hstep, hcatalog]

namespace Schema

variable {p q : Project} {u v : Usage} {f g : Facets} {s t i j : Schema} {m n : OrderedMap Schema}

theorem Agree.withMock (h : Comparable p q u v f g) (hst : Agree f g s t) (said : Option String) :
    Agree f g (p.withMock s said) (q.withMock t said) := by
  obtain ⟨body, parameter, rfl⟩ := h.project
  have hdates := h.dates
  refine { hst with mock := ?_ }
  cases hf : f.dates with
  | true => simp [hdates ▸ hf]
  | false =>
    have hg : g.dates = false := hdates ▸ hf
    have hformat := hst.dateFormat
    have hmock := hst.mock
    rw [hf, hg, hide_false, hide_false] at hformat hmock
    have hfits : (fun rule : Mock => rule.fits s) = fun rule => rule.fits t := by
      funext rule
      rw [Mock.fits, Mock.fits, hst.dataType, hst.name]
    have htype : Mock.byType s = Mock.byType t := by
      rw [Mock.byType, Mock.byType, hst.dataType, hformat, hst.values]
    have hchoose (enabled : Bool) (rules : List Mock) :
        Mock.choose enabled rules s said = Mock.choose enabled rules t said := by
      rw [Mock.choose, Mock.choose, hfits, htype]
    rw [hg]
    simp only [Project.withMock, hide_false, hmock, hchoose]
    rfl

private theorem find?_dated (text : String) (annotations : List Annotation) {carrier : Carrier}
    (h : DateFormat.ofCarrier q.settings carrier = DateFormat.ofCarrier p.settings carrier)
    (hq : ∃ body parameter, q = p.dated body parameter) :
    DateFormat.find? q text annotations carrier = DateFormat.find? p text annotations carrier := by
  obtain ⟨body, parameter, rfl⟩ := hq
  have htype : DateFormat.ofType (p.dated body parameter).settings text carrier =
      DateFormat.ofType p.settings text carrier := by
    rw [DateFormat.ofType, DateFormat.ofType, h]
  rw [DateFormat.find?, DateFormat.find?, htype]
  rfl

theorem Agree.stampDate (h : Comparable p q u v f g) (hst : Agree f g s t) (text : String)
    (annotations : List Annotation) :
    Agree f g (s.stampDate p text annotations u.carrier)
      (t.stampDate q text annotations v.carrier) := by
  have hdates := h.dates
  rw [stampDate_eq, stampDate_eq, ← h.carrier]
  refine { hst with dateFormat := ?_ }
  cases hf : f.dates with
  | true => simp [← hdates, hf]
  | false =>
    have hformat := hst.dateFormat
    rw [← hdates, hf, hide_false, hide_false] at hformat
    rw [← hdates, hf, hformat, hst.dataType, find?_dated text annotations (h.formats hf) h.project]

theorem Agree.describe (h : Comparable p q u v f g) (hst : Agree f g s t) (m : Member)
    (text : String) : Agree f g (m.describe p u text s) (m.describe q v text t) := by
  refine Agree.withMock h (Agree.stampDate h ?_ text m.annotations) _
  have hvalues := hst.ownOrItemValues
  have hrequired : Remarks.isRequired q.settings = Remarks.isRequired p.settings := by
    obtain ⟨body, parameter, rfl⟩ := h.project
    rfl
  refine { hst with
    name := rfl, description := ?_, values := hvalues, required := ?_, deprecated := rfl
    default := ?_ }
  · simp only [hvalues]
  · simp only [hrequired]
  · rcases h.defaults with ⟨hf, hg⟩ | ⟨hfg, huv⟩ | ⟨_, hu, hv⟩
    · simp [hf, hg]
    · simp only [← huv]
      cases u.direction with
      | request => rw [hfg]
      | response => exact hst.default
    · simp only [hu, hv]
      exact hst.default

/-- Where neither run sets defaults of its own, no correction that counts gives one. -/
theorem Agree.correct (h : Comparable p q u v f g) (hst : Agree f g s t) (m : Member)
    {override : Option TypeOverride} {name : String} {type : Option TypeDecl}
    (ho : p.settings.typeOverride? name type = override) :
    Agree f g (m.correct override s) (m.correct override t) := by
  unfold Member.correct
  rw [hst.name]
  split
  · exact hst
  · next o hfound =>
    refine hst.overlay o h.dates ?_
    rcases h.defaults with ⟨hf, hg⟩ | ⟨hfg, _⟩ | ⟨hnone, _, _⟩
    · exact .inl (hf.trans hg.symm)
    · exact .inl hfg
    · obtain ⟨types, htypes, hfield⟩ := Option.bind_eq_some_iff.mp hfound
      obtain ⟨key, hkey⟩ : ∃ key, (key, types) ∈ p.settings.types := by
        rw [htypes, Settings.typeOverride?] at ho
        rcases Option.or_eq_some_iff.mp ho with ho | ⟨_, ho⟩
        · exact ⟨_, OrderedMap.mem_of_get? ho⟩
        · obtain ⟨t, _, ho⟩ := Option.bind_eq_some_iff.mp ho
          rcases Option.or_eq_some_iff.mp ho with ho | ⟨_, ho⟩
          · exact ⟨_, OrderedMap.mem_of_get? ho⟩
          · exact ⟨_, OrderedMap.mem_of_get? ho⟩
      rcases Option.or_eq_some_iff.mp hfield with hfield | ⟨_, hfield⟩
      · exact .inr (hnone _ hkey _ (OrderedMap.mem_of_get? hfield))
      · exact .inr (hnone _ hkey _ (OrderedMap.mem_of_get? hfield))

/-- The same was found apart from the facets, or nothing by either run. -/
def SameFound (f g : Facets) (a b : Option Schema) : Prop :=
  a.map (stripped f) = b.map (stripped g)

private theorem stripped_withProperties (h : allStripped f m = allStripped g n) :
    (withProperties m).stripped f = (withProperties n).stripped g := by
  simp [withProperties, object, stripped_eq, h]

private theorem stripped_mapOf (h : i.stripped f = j.stripped g) :
    (mapOf i).stripped f = (mapOf j).stripped g := by
  have hnamed : { i with name := mapKey }.stripped f = { j with name := mapKey }.stripped g :=
    stripped_eq_iff.mpr { stripped_eq_iff.mp h with name := rfl }
  exact stripped_withProperties (m := [(mapKey, _)]) (n := [(mapKey, _)])
    (congrArg (fun s => [(mapKey, s)]) hnamed)

theorem SameFound.getD_object {a b : Option Schema} (h : SameFound f g a b) :
    (a.getD object).stripped f = (b.getD object).stripped g := by
  have hgetD (e : Facets) (a : Option Schema) :
      (a.getD object).stripped e = (a.map (stripped e)).getD object := by
    cases a with
    | none => exact stripped_object e
    | some s => rfl
  rw [hgetD, hgetD, h]

theorem SameFound.cases {a b : Option Schema} (h : SameFound f g a b) :
    (a = none ∧ b = none) ∨ ∃ s t, a = some s ∧ b = some t ∧ s.stripped f = t.stripped g := by
  cases a with
  | none => exact .inl ⟨rfl, by simpa [SameFound] using h.symm⟩
  | some s =>
    obtain ⟨t, ht, hst⟩ := Option.map_eq_some_iff.mp h.symm
    exact .inr ⟨s, t, rfl, ht, hst.symm⟩

theorem SameFound.map {a b : Option Schema} {k l : Schema → Schema} (h : SameFound f g a b)
    (hkl : ∀ s t, s.stripped f = t.stripped g → (k s).stripped f = (l t).stripped g) :
    SameFound f g (a.map k) (b.map l) := by
  rcases h.cases with ⟨rfl, rfl⟩ | ⟨s, t, rfl, rfl, hst⟩
  · rfl
  · exact congrArg some (hkl s t hst)

theorem SameFound.properties {a b : Option Schema} (h : SameFound f g a b) :
    allStripped f ((a.bind (·.properties)).getD []) =
      allStripped g ((b.bind (·.properties)).getD []) := by
  rcases h.cases with ⟨rfl, rfl⟩ | ⟨s, t, rfl, rfl, hst⟩
  · rfl
  · exact (stripped_eq_iff.mp hst).properties_getD

section

variable {resolve resolve' : String → Noting (Option Schema)}

private theorem parallel_seen (h : Comparable p q u v f g)
    (hr : ∀ text, Parallel (SameFound f g) (resolve text) (resolve' text)) (name : String)
    (t : TypeDecl) : Parallel (fun m n => allStripped f m = allStripped g n)
      (seen p resolve name t) (seen q resolve' name t) := by
  obtain ⟨body, parameter, rfl⟩ := h.project
  refine comparison_parallel.foldlM (fun m n hmn reference _ => ?_) rfl
  have hrelated : related? (p.dated body parameter) t reference = related? p t reference := rfl
  rw [hrelated]
  cases related? p t reference with
  | none =>
    refine (parallel_self (R := fun _ _ => True) (fun _ => trivial) _).bind fun _ _ _ => ?_
    exact parallel_pure hmn
  | some target =>
    exact (hr target.name).bind fun a b hab => parallel_pure (allStripped_putAll hmn hab.properties)

private theorem parallel_addMember (h : Comparable p q u v f g)
    (hr : ∀ text, Parallel (SameFound f g) (resolve text) (resolve' text))
    {override : Option TypeOverride} {name : String} {type : Option TypeDecl}
    (ho : p.settings.typeOverride? name type = override) (bindings : TypeText.Bindings)
    (member : Member) (hmn : allStripped f m = allStripped g n) :
    Parallel (fun m n => allStripped f m = allStripped g n)
      (addMember p u resolve override bindings m member)
      (addMember q v resolve' override bindings n member) := by
  unfold addMember
  split
  · refine (hr _).bind fun a b hab => ?_
    rcases hab.cases with ⟨rfl, rfl⟩ | ⟨s, t, rfl, rfl, hst⟩
    · exact parallel_pure hmn
    · have hdescribed := (stripped_eq_iff.mp hst).describe h member
        (TypeText.substitute bindings member.typeText)
      have hcorrected := hdescribed.correct h member ho
      exact parallel_pure (allStripped_put hmn (stripped_eq_iff.mpr hcorrected))
  · exact parallel_pure hmn

private theorem parallel_propertiesOf (h : Comparable p q u v f g)
    (hr : ∀ text, Parallel (SameFound f g) (resolve text) (resolve' text)) (name : String)
    (t : TypeDecl) (arguments : List String) :
    Parallel (fun m n => allStripped f m = allStripped g n)
      (propertiesOf p u resolve name t arguments) (propertiesOf q v resolve' name t arguments) := by
  refine (parallel_seen h hr name t).bind fun m n hmn => ?_
  obtain ⟨body, parameter, rfl⟩ := h.project
  refine comparison_parallel.foldlM (fun m n hmn member _ => ?_) hmn
  exact parallel_addMember h hr rfl _ member hmn

end

variable {deeper deeper' : Chain → String → Noting (Option Schema)}

private theorem parallel_resolveBy (h : Comparable p q u v f g)
    (hr : ∀ chain text, Parallel (SameFound f g) (deeper chain text) (deeper' chain text))
    (chain : Chain) (text : String) :
    Parallel (SameFound f g) (resolveBy deeper p u chain text)
      (resolveBy deeper' q v chain text) := by
  have hshape : Shape.ofText? q text = Shape.ofText? p text := by
    obtain ⟨body, parameter, rfl⟩ := h.project
    exact Shape.ofText?_dated p body parameter text
  unfold resolveBy
  rw [hshape]
  cases Shape.ofText? p text with
  | none => exact parallel_endless _
  | some shape =>
    simp only
    induction shape with
    | nothing => exact parallel_pure rfl
    | plain d =>
      have hplain := (stripped_ofType f d).trans (stripped_ofType g d).symm
      exact parallel_pure (congrArg some hplain)
    | known d values =>
      have hknown := (stripped_known f d values).trans (stripped_known g d values).symm
      exact parallel_pure (congrArg some hknown)
    | list items ih =>
      exact ih.bind fun a b hab => parallel_pure (congrArg some (stripped_array hab.getD_object))
    | map value ih =>
      refine ih.bind fun a b hab => parallel_pure (congrArg some ?_)
      exact (hab.map fun _ _ => stripped_mapOf).getD_object
    | members name t arguments =>
      refine Parallel.bind (R := fun s t => s.stripped f = t.stripped g) ?_ fun s t hst =>
        parallel_pure (congrArg some hst)
      unfold openType
      split
      · exact parallel_pure ((stripped_object f).trans (stripped_object g).symm)
      · exact comparison_parallel.map (parallel_propertiesOf h (hr _) name t arguments) fun m n =>
          stripped_withProperties

/-- Runs that are comparable give the same apart from the facets, with the same warnings. -/
theorem parallel_resolve (h : Comparable p q u v f g) (chain : Chain) (text : String) :
    Parallel (SameFound f g) (resolve p u chain text) (resolve q v chain text) := by
  have hroom : room q chain = room p chain := by
    obtain ⟨body, parameter, rfl⟩ := h.project
    rfl
  unfold resolve
  rw [hroom]
  clear hroom
  generalize room p chain = n
  induction n generalizing chain text with
  | zero => exact parallel_resolveBy h (fun _ _ => parallel_endless _) chain text
  | succ n ih => exact parallel_resolveBy h ih chain text

private theorem hasNode_default (hs : s.stripped onlyDefaults = s.stripped {}) {n : Schema}
    (hn : s.HasNode n) : n.default = none := by
  induction hn with
  | self s => exact (stripped_eq_iff.mp hs).default.symm
  | @items s i n hi _ ih =>
    have hitems := (stripped_eq_iff.mp hs).items
    rw [hi] at hitems
    exact ih (Option.some.inj hitems)
  | @property s n m e hm he _ ih =>
    have hproperties := (stripped_eq_iff.mp hs).properties
    rw [hm] at hproperties
    have hentries := List.map_inj_left.mp (Option.some.inj hproperties) e he
    exact ih (Prod.mk.inj hentries).2

/-- What is sent and what comes back have the same schema but for the defaults, and the same
warnings are given for both; what comes back has no default at all unless a correction gives one. -/
theorem resolve_direction (p : Project) (carrier : Carrier) (chain : Chain) (text : String) :
    Option.map (stripped onlyDefaults) <$> resolve p ⟨.request, carrier⟩ chain text =
      Option.map (stripped onlyDefaults) <$> resolve p ⟨.response, carrier⟩ chain text ∧
    (p.settings.GivesNoDefault →
      ∀ w s v, resolve p ⟨.response, carrier⟩ chain text w = some (some s, v) →
        ∀ n, s.HasNode n → n.default = none) := by
  have hself : ∃ body parameter, p = p.dated body parameter := ⟨_, _, rfl⟩
  constructor
  · have h : Comparable p p ⟨.request, carrier⟩ ⟨.response, carrier⟩ onlyDefaults onlyDefaults :=
      { project := hself
        carrier := rfl
        dates := rfl
        formats := fun _ => rfl
        defaults := .inl ⟨rfl, rfl⟩ }
    exact (parallel_resolve h chain text).map_eq
  · intro hnone w s v hs n hn
    have h : Comparable p p ⟨.response, carrier⟩ ⟨.response, carrier⟩ onlyDefaults {} :=
      { project := hself
        carrier := rfl
        dates := rfl
        formats := fun _ => rfl
        defaults := .inr (.inr ⟨hnone, rfl, rfl⟩) }
    have hrun := parallel_resolve h chain text w
    rw [hs] at hrun
    cases hrun with
    | some hfound => exact hasNode_default (Option.some.inj hfound.1) hn

/-- A type with a default in its source. -/
def paging : TypeDecl :=
  { name := "Paging", shortName := "Paging", kind := .record
    fields := [{ name := "size", typeText := "int", initial := some "20" }] }

def pagingProject : Project :=
  Project.of (({} : Catalog).insert paging) {}

private theorem isRecord_paging : pagingProject.IsRecord paging := by
  have hcatalog : pagingProject.catalog = ({} : Catalog).insert paging := rfl
  have hfound : ∀ v ∈ [paging], pagingProject.catalog.find? v.name = some v := by
    rw [hcatalog]
    intro v hv
    rw [List.mem_singleton.mp hv]
    decide
  exact Project.isRecord_of_closed hfound (by decide) (by decide) (by decide)
    (List.mem_singleton_self paging)

private theorem resolve_int (u : Usage) (chain : Chain) (w : List Warning) :
    resolve pagingProject u chain "int" w = some (some (ofType .integer), w) := by
  have hint : step pagingProject "int" = .settled (.plain .integer) :=
    @step_scalar pagingProject "int" none (by decide) .integer (by decide)
      (by decide)
  exact resolve_of_plain hint w

def sizeMember : Member :=
  ⟨"size", "int", [], {}, some "20"⟩

private theorem members_paging : Member.ofType pagingProject paging = [sizeMember] :=
  isRecord_paging.own_members rfl rfl

private theorem resolve_paging (u : Usage) (w : List Warning) :
    resolve pagingProject u [] "Paging" w = some (some (withProperties
      [("size", sizeMember.describe pagingProject u "int" (ofType .integer))]), w) := by
  have hshown : sizeMember.isShown none = true := by decide
  have hname (s : Schema) : (sizeMember.describe pagingProject u "int" s).name = "size" := by
    rw [Member.describe, stampDate_eq]
    rfl
  have hadded : addMember pagingProject u (resolve pagingProject u ["Paging"]) none [] []
      sizeMember w =
        some ([("size", sizeMember.describe pagingProject u "int" (ofType .integer))], w) := by
    rw [addMember, if_pos hshown, TypeText.substitute_nil]
    refine bind_eq_some.mpr ⟨_, w, resolve_int u _ w, ?_⟩
    change some (OrderedMap.put [] (sizeMember.describe pagingProject u "int" _).name _, w) = _
    rw [hname]
    rfl
  have hstep : step pagingProject "Paging" = .settled (.members "Paging" paging []) :=
    isRecord_paging.step
  rw [resolve_eq_resolveOnce, resolveOnce, hstep]
  refine bind_eq_some.mpr ⟨_, w, map_eq_some.mpr ⟨_, w, ?_, rfl⟩, rfl⟩
  refine bind_eq_some.mpr ⟨[], w, rfl, ?_⟩
  rw [members_paging]
  exact bind_eq_some.mpr ⟨_, w, hadded, rfl⟩

private theorem default_sizeMember (u : Usage) {s : Schema} (hs : s.default = none) :
    (sizeMember.describe pagingProject u "int" s).default =
      match u.direction with
      | .request => some "20"
      | .response => none := by
  have hdefault : Remarks.defaultValue? (some "20") {} = some "20" := by decide
  obtain ⟨direction, carrier⟩ := u
  rw [Member.describe, stampDate_eq]
  cases direction with
  | request => exact hdefault
  | response => exact hs

/-- A default of the source is documented for what is sent and for nothing that comes back. -/
theorem resolve_direction_paging :
    pagingProject.settings.GivesNoDefault ∧
      (∃ s, resolve pagingProject ⟨.request, .body⟩ [] "Paging" [] = some (some s, []) ∧
        ∃ n, s.HasNode n ∧ n.default = some "20") ∧
      ∃ s, resolve pagingProject ⟨.response, .body⟩ [] "Paging" [] = some (some s, []) ∧
        ∀ n, s.HasNode n → n.default = none := by
  have hnone : pagingProject.settings.GivesNoDefault := by
    intro e he
    cases he
  refine ⟨hnone, ⟨_, resolve_paging ⟨.request, .body⟩ [], ?_⟩,
    _, resolve_paging ⟨.response, .body⟩ [], ?_⟩
  · refine ⟨_, .property rfl List.mem_cons_self (.self _), ?_⟩
    exact default_sizeMember ⟨.request, .body⟩ rfl
  · exact (resolve_direction pagingProject .body [] "Paging").2 hnone [] _ _
      (resolve_paging ⟨.response, .body⟩ [])

end Schema

end EndpointDocs

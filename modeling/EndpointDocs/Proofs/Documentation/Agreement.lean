import EndpointDocs.Documentation
import EndpointDocs.Proofs.Catalog.Search
import EndpointDocs.Proofs.Shape.Following

namespace EndpointDocs

namespace Catalog

/-- The types are the same, and every reference means the same type. -/
structure Agrees (c d : Catalog) : Prop where
  types : c.types = d.types
  find? : c.find? = d.find?

/-- The types are the same up to their order, and every name and reference means the same type. -/
structure AgreesUpToOrder (c d : Catalog) : Prop where
  types : c.types.Perm d.types
  byName? : c.byName? = d.byName?
  find? : c.find? = d.find?

variable {c d : Catalog}

theorem Agrees.upToOrder (h : c.Agrees d) : c.AgreesUpToOrder d where
  types := h.types ▸ .refl _
  byName? := by
    funext name
    rw [Catalog.byName?, Catalog.byName?, h.types]
  find? := h.find?

namespace AgreesUpToOrder

variable (h : c.AgreesUpToOrder d)
include h

theorem inherits : c.inherits = d.inherits := by
  funext t base
  have hnames : ∀ n, n ∈ without t.name (c.supertypeNames t) ↔
      n ∈ without t.name (d.supertypeNames t) := by
    simp [mem_without, supertypeNames, h.types.mem_iff]
  rw [Catalog.inherits, Catalog.inherits, h.find?, meets_congr hnames]

theorem ancestors : c.ancestors = d.ancestors := by
  funext t
  have hnames : ∀ n, n ∈ without t.name (c.types.map (·.name)) ↔
      n ∈ without t.name (d.types.map (·.name)) := by
    simp [mem_without, h.types.mem_iff]
  rw [Catalog.ancestors, Catalog.ancestors, h.find?, above_congr hnames]

theorem allMethods : c.allMethods = d.allMethods := by
  funext t
  rw [Catalog.allMethods, Catalog.allMethods, h.ancestors]

theorem allFields : c.allFields = d.allFields := by
  funext t
  rw [Catalog.allFields, Catalog.allFields, h.ancestors]

/-- A name without a path is looked for as a reference is. -/
theorem matchesAny : c.matchesAny = d.matchesAny := by
  funext entries text
  have hwhole := congrFun h.find? text
  rw [Catalog.find?, Catalog.find?] at hwhole
  rw [Catalog.matchesAny, Catalog.matchesAny]
  simp only
  split
  · rfl
  · next hname =>
    rw [if_neg hname, if_neg hname] at hwhole
    by_cases hshort : TypeText.shortName (TypeText.rawName text) = TypeText.rawName text
    · simp only [hshort] at hwhole ⊢
      simp only [if_true, hwhole]
    · simp only [hshort, if_false, Option.or_none, h.byName?]

theorem ofClass : Route.ofClass c = Route.ofClass d := by
  funext t
  rw [Route.ofClass, Route.ofClass, h.ancestors]

end AgreesUpToOrder

end Catalog

/-- The project with another catalog. -/
abbrev Project.over (p : Project) (d : Catalog) : Project :=
  { p with catalog := d }

variable {p : Project} {d : Catalog}

theorem Project.withMock_over : (p.over d).withMock = p.withMock :=
  rfl

variable (h : d.AgreesUpToOrder p.catalog)
include h

private theorem Project.inheritsAny_over : (p.over d).inheritsAny = p.inheritsAny := by
  funext t bases
  rw [inheritsAny, inheritsAny, h.inherits]

private theorem Project.classify_over : (p.over d).classify = p.classify := by
  funext t
  rw [classify, classify, isCollection, isCollection, inheritsAny_over h]

private theorem Project.isMap_over : (p.over d).isMap = p.isMap := by
  funext t
  rw [isMap, isMap, inheritsAny_over h]

namespace Shape

private theorem inheritedElement_over : inheritedElement (p.over d) = inheritedElement p := by
  funext t
  rw [inheritedElement, inheritedElement, h.ancestors]

private theorem stepType_over : stepType (p.over d) = stepType p := by
  funext text t
  have htop : (p.over d).isTop t = p.isTop t := rfl
  simp only [stepType, Project.classify_over h, Project.isMap_over h, inheritedElement_over h, htop]

private theorem step_over : step (p.over d) = step p := by
  funext text
  simp only [step, stepType_over h, h.find?]

private theorem ofText?_over : ofText? (p.over d) = ofText? p := by
  funext text
  apply Option.ext
  intro s
  rw [ofText?_eq_some_iff, ofText?_eq_some_iff, step_over h]

end Shape

theorem Member.ofType_over : Member.ofType (p.over d) = Member.ofType p := by
  funext t
  rw [ofType, ofType, hasAccessors, hasAccessors, Project.inheritsAny_over h, h.allMethods,
    h.allFields]

private theorem Schema.stampDate_over (s : Schema) : s.stampDate (p.over d) = s.stampDate p := by
  funext text annotations carrier
  have hdate : DateFormat.isDate (p.over d) text = DateFormat.isDate p text := by
    rw [DateFormat.isDate, DateFormat.isDate, h.matchesAny]
  rw [stampDate, stampDate, DateFormat.find?, DateFormat.find?, hdate]

private theorem Member.describe_over (m : Member) : m.describe (p.over d) = m.describe p := by
  funext u text s
  simp only [describe, Schema.stampDate_over h, Project.withMock_over]

namespace Schema

private theorem seen_over : seen (p.over d) = seen p := by
  funext resolve name t
  have hrelated : related? (p.over d) t = related? p t := by
    funext reference
    rw [related?, related?, h.find?, h.inherits]
  rw [seen, seen, hrelated]

private theorem addMember_over : addMember (p.over d) = addMember p := by
  funext u resolve override bindings properties m
  rw [addMember, addMember, Member.describe_over h]

private theorem propertiesOf_over : propertiesOf (p.over d) = propertiesOf p := by
  funext u resolve name t arguments
  rw [propertiesOf, propertiesOf, seen_over h, Member.ofType_over h, addMember_over h]

private theorem resolveBy_over (deeper : Chain → String → Noting (Option Schema)) :
    resolveBy deeper (p.over d) = resolveBy deeper p := by
  funext u chain text
  have hopen : openType deeper (p.over d) u chain = openType deeper p u chain := by
    funext name t arguments
    rw [openType, openType, propertiesOf_over h]
  rw [resolveBy, resolveBy, Shape.ofText?_over h, hopen]

private theorem resolve_over : resolve (p.over d) = resolve p := by
  have hwithin (u : Usage) (n : Nat) : resolveWithin (p.over d) u n = resolveWithin p u n := by
    induction n with
    | zero => rw [resolveWithin, resolveWithin, resolveBy_over h]
    | succ n ih => rw [resolveWithin, resolveWithin, ih, resolveBy_over h]
  funext u chain text
  have hroom : room (p.over d) chain = room p chain := (h.types.filter _).length_eq
  rw [resolve, resolve, hroom, hwithin]

end Schema

namespace Request

private theorem ofParameter_over : ofParameter (p.over d) = ofParameter p := by
  funext doc method placed param
  have hdescribe : describe (p.over d) = describe p := by
    funext doc param placing location s
    simp only [describe, Schema.stampDate_over h, Project.withMock_over]
  rw [ofParameter, ofParameter, Schema.resolve_over h, hdescribe]

private theorem ofBody_over : ofBody (p.over d) = ofBody p := by
  funext doc param
  simp only [ofBody, Schema.resolve_over h, Schema.stampDate_over h]

private theorem addParameter_over : addParameter (p.over d) = addParameter p := by
  funext doc method r param
  simp only [addParameter, ofBody_over h, ofParameter_over h, h.matchesAny]

private theorem ofMethod_over : ofMethod (p.over d) = ofMethod p := by
  funext m method
  rw [ofMethod, ofMethod, addParameter_over h]

end Request

private theorem Response.ofMethod_over : ofMethod (p.over d) = ofMethod p := by
  funext m
  have htype : typeFor? (p.over d) = typeFor? p := by
    funext declared
    rw [typeFor?, typeFor?, h.matchesAny]
  unfold ofMethod
  simp only [htype, Schema.resolve_over h, Schema.stampDate_over h, Project.withMock_over]

namespace Documentation

private theorem ofMethods_over : ofMethods (p.over d) = ofMethods p := by
  funext t methods
  have hcommon : common (p.over d) = common p := by
    funext t m method
    rw [common, common, Request.ofMethod_over h, Response.ofMethod_over h]
  have hmethod : ofMethod (p.over d) = ofMethod p := by
    funext t base m
    rw [ofMethod, ofMethod, hcommon]
  rw [ofMethods, ofMethods, h.ofClass, hmethod]

private theorem endpointMethods_over :
    Controller.endpointMethods d = Controller.endpointMethods p.catalog := by
  funext t
  rw [Controller.endpointMethods, Controller.endpointMethods, h.allMethods]

/-- Of a catalog nothing is asked but its types and what references mean in it. -/
theorem ofType_over : ofType (p.over d) = ofType p := by
  funext t
  rw [ofType, ofType, endpointMethods_over h, ofMethods_over h]

omit h in
/-- Over catalogs that agree a project has the same documentation and the same warnings. -/
theorem ofProject_over (h : d.Agrees p.catalog) : ofProject (p.over d) = ofProject p := by
  have hcontroller : Controller.ofType? (p.over d) = Controller.ofType? p := by
    funext t
    rw [Controller.ofType?, Controller.ofType?, endpointMethods_over h.upToOrder]
  rw [ofProject, ofProject, Controller.all, Controller.all, hcontroller, ofMethods_over h.upToOrder,
    h.types]

end Documentation

end EndpointDocs

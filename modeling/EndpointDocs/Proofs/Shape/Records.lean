import EndpointDocs.Member
import EndpointDocs.Proofs.Catalog.Roots
import EndpointDocs.Proofs.Shape.Steps

namespace EndpointDocs

open TypeText

variable {p : Project} {t : TypeDecl}

namespace Shape

section

variable {name : String} {arguments? : Option String} (h : IsBare name)
include h

theorem step_void (hvoid : name ∈ voidNames) :
    step p (withArguments name arguments?) = .settled .nothing := by
  have hvalue : isVoid (withArguments name arguments?) = true := by
    rw [h.isVoid_withArguments, decide_eq_true hvoid]
  rw [step_of_component?_eq_none h.component?_withArguments h.trim_withArguments, if_pos hvalue]

private theorem isVoid_eq_false (hvoid : name ∉ voidNames) :
    isVoid (withArguments name arguments?) = false := by
  rw [h.isVoid_withArguments, decide_eq_false hvoid]

theorem step_scalar {d : DataType} (hvoid : name ∉ voidNames)
    (hd : Scalar.named? p.scalars name = some d) :
    step p (withArguments name arguments?) = .settled (.plain d) := by
  rw [step_of_component?_eq_none h.component?_withArguments h.trim_withArguments,
    isVoid_eq_false h hvoid, if_neg Bool.false_ne_true, Scalar.named?_withArguments _ h, hd]

theorem step_type (hvoid : name ∉ voidNames) (hd : Scalar.named? p.scalars name = none)
    (hfind : p.catalog.find? name = some t) :
    step p (withArguments name arguments?) = stepType p (withArguments name arguments?) t :=
  step_of_find? h.trim_withArguments h.component?_withArguments (isVoid_eq_false h hvoid)
    ((Scalar.named?_withArguments _ h).trans hd) ((p.catalog.find?_withArguments h).trans hfind)

end

end Shape

namespace Project

/-- A type that its own name refers to, and that is documented by its members. -/
structure IsRecord (p : Project) (t : TypeDecl) : Prop where
  found : p.catalog.find? t.name = some t
  bare : IsBare t.name
  value : t.name ∉ voidNames
  kind : t.kind = .record
  noScalar : Scalar.named? p.scalars t.name = none
  noContainer : p.isCollection t = false ∧ p.isMap t = false
  notTop : p.isTop t = false

theorem IsRecord.step_withArguments (h : p.IsRecord t) (arguments? : Option String) :
    Shape.step p (withArguments t.name arguments?) =
      .settled (.members t.name t (arguments (withArguments t.name arguments?))) := by
  rw [Shape.step_type h.bare h.value h.noScalar h.found,
    Shape.stepType_record h.kind h.noScalar h.noContainer h.notTop, h.bare.rawName_withArguments]

theorem IsRecord.step (h : p.IsRecord t) :
    Shape.step p t.name = .settled (.members t.name t []) := by
  have hstep := h.step_withArguments none
  rwa [withArguments, h.bare.arguments_eq_nil] at hstep

/-- A record has its fields for members unless the settings name bases of types with accessors. -/
theorem IsRecord.members (h : p.IsRecord t) (hbases : p.settings.accessorBaseTypes = []) :
    Member.ofType p t = (p.catalog.allFields t).filterMap Member.ofField := by
  have haccessors : Member.hasAccessors p t = false := by
    rw [Member.hasAccessors, h.kind, hbases]
    rfl
  rw [Member.ofType, haccessors, if_neg Bool.false_ne_true]

theorem IsRecord.own_members (h : p.IsRecord t) (hbases : p.settings.accessorBaseTypes = [])
    (hextends : t.supertypes = []) :
    Member.ofType p t = t.fields.filterMap Member.ofField := by
  rw [h.members hbases, Catalog.allFields_of_supertypes_eq_nil _ hextends]

/-- Types that extend none but each other are records if none of them has a name that means
something else. -/
theorem isRecord_of_closed {types : List TypeDecl}
    (hfound : ∀ v ∈ types, p.catalog.find? v.name = some v)
    (hclosed : ∀ v ∈ types, ∀ s ∈ v.supertypes, s ∈ types.map (·.name))
    (hroots : ∀ v ∈ types, ∀ r ∈ p.settings.collectionTypes ++ p.settings.mapTypes,
      v.name ≠ rawName r ∧ v.shortName ≠ rawName r ∧
        ∀ s ∈ v.supertypes, ¬ Catalog.Hits (rawName r) (rawName s))
    (hnames : ∀ v ∈ types, (v.kind = .record ∧ IsBare v.name ∧ v.name ∉ voidNames) ∧
      Scalar.named? p.scalars v.name = none ∧ v.name ∉ p.settings.topTypes)
    (ht : t ∈ types) : p.IsRecord t := by
  have habove : ∀ v ∈ types, ∀ s ∈ v.supertypes, ∀ w, p.catalog.find? s = some w → w ∈ types := by
    intro v hv s hs w hw
    obtain ⟨x, hx, rfl⟩ := List.mem_map.mp (hclosed v hv s hs)
    rw [hfound x hx] at hw
    cases hw
    exact hx
  have hcollection : p.isCollection t = false :=
    inheritsAny_eq_false habove (fun v hv r hr => hroots v hv r (List.mem_append_left _ hr)) ht
  have hmap : p.isMap t = false :=
    inheritsAny_eq_false habove (fun v hv r hr => hroots v hv r (List.mem_append_right _ hr)) ht
  obtain ⟨⟨hkind, hbare, hvalue⟩, hscalar, htop⟩ := hnames t ht
  exact ⟨hfound t ht, hbare, hvalue, hkind, hscalar, ⟨hcollection, hmap⟩, decide_eq_false htop⟩

end Project

end EndpointDocs

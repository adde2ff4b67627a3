import EndpointDocs.Proofs.Catalog.Hierarchy
import EndpointDocs.Proofs.Catalog.Lookup
import EndpointDocs.Proofs.Catalog.Passing
import EndpointDocs.Proofs.Shape.Following

namespace EndpointDocs

open TypeText Catalog Relation

/-- The declaration with other supertypes, if it goes by the name. -/
def TypeDecl.withSupertypes (name : String) (supertypes : List String) (t : TypeDecl) : TypeDecl :=
  if t.name = name then { t with supertypes } else t

/-- The project with other supertypes for the type that goes by the name. -/
abbrev Project.withSupertypes (p : Project) (name : String) (supertypes : List String) : Project :=
  p.mapTypes (·.withSupertypes name supertypes)

namespace TypeDecl

variable (name : String) (supertypes : List String) (t : TypeDecl)

@[simp] theorem withSupertypes_name : (t.withSupertypes name supertypes).name = t.name := by
  unfold withSupertypes
  split <;> rfl

@[simp] theorem withSupertypes_shortName :
    (t.withSupertypes name supertypes).shortName = t.shortName := by
  unfold withSupertypes
  split <;> rfl

@[simp] theorem withSupertypes_parameters :
    (t.withSupertypes name supertypes).parameters = t.parameters := by
  unfold withSupertypes
  split <;> rfl

@[simp] theorem withSupertypes_kind : (t.withSupertypes name supertypes).kind = t.kind := by
  unfold withSupertypes
  split <;> rfl

@[simp] theorem withSupertypes_component :
    (t.withSupertypes name supertypes).component = t.component := by
  unfold withSupertypes
  split <;> rfl

@[simp] theorem withSupertypes_constants :
    (t.withSupertypes name supertypes).constants = t.constants := by
  unfold withSupertypes
  split <;> rfl

theorem withSupertypes_of_ne {name : String} {t : TypeDecl} (h : t.name ≠ name)
    (supertypes : List String) : t.withSupertypes name supertypes = t :=
  if_neg h

theorem withSupertypes_supertypes {name : String} {t : TypeDecl} (h : t.name = name)
    (supertypes : List String) : (t.withSupertypes name supertypes).supertypes = supertypes := by
  rw [withSupertypes, if_pos h]

end TypeDecl

/-- Types are told apart by their names, which are bare and end in their short names, and no
supertype is named by a parameter. -/
structure Catalog.Regular (c : Catalog) : Prop where
  own : ∀ t ∈ c.types, c.byName? t.name = some t
  bare : ∀ t ∈ c.types, IsBare t.name
  short : ∀ t ∈ c.types, t.shortName = shortName t.name
  plain : c.PlainNames

/-- As a supertype, the reference makes neither a collection nor a map of a type. -/
def Project.Unrooted (p : Project) (s : String) : Prop :=
  ∀ r ∈ p.settings.collectionTypes ++ p.settings.mapTypes, ¬ Hits (rawName r) (rawName s) ∧
    ∀ u, p.catalog.find? s = some u → p.catalog.inherits u r = false

/-- The collection `d` gets `supertypes`, which are those that it has, in their order, and those in
`added`, which are new and make nothing else of it. -/
structure Project.AddsSupertypes (p : Project) (d : TypeDecl) (added supertypes : List String) :
    Prop where
  declared : d ∈ p.catalog.types
  collection : p.isCollection d = true
  map : p.isMap d = false
  top : p.isTop d = false
  component : d.component = none
  kept : supertypes.filter (· ∉ added) = d.supertypes
  unrooted : ∀ s ∈ added, p.Unrooted s
  plain : ∀ s ∈ added, ∀ k ∈ d.parameters, ¬ TypeText.Mentions (rawName s) k

variable {p : Project} {d t u v : TypeDecl} {added supertypes : List String} {r s : String}

namespace Catalog

variable {c : Catalog}

theorem Regular.wellNamed (hc : c.Regular) (ht : t ∈ c.types) : WellNamed c t where
  own := hc.own t ht
  short u hu := by
    by_cases hne : u = t
    · exact hc.short u (hne ▸ ht)
    · exact hc.short u (mem_types_of_above hu hne)

theorem Regular.inherits_iff (hc : c.Regular) (ht : t ∈ c.types) :
    c.inherits t r = true ↔ c.LeadsTo t (rawName r) :=
  ⟨leadsTo_of_inherits, inherits_of_leadsTo (hc.wellNamed ht)⟩

theorem Above.mem_types (h : c.Above t u) (ht : t ∈ c.types) : u ∈ c.types := by
  by_cases hne : u = t
  · exact hne ▸ ht
  · exact mem_types_of_above h hne

end Catalog

namespace Project

theorem find?_withSupertypes (name : String) (supertypes : List String) (text : String) :
    (p.withSupertypes name supertypes).catalog.find? text =
      (p.catalog.find? text).map (·.withSupertypes name supertypes) :=
  find?_mapTypes (TypeDecl.withSupertypes_name name supertypes) text

namespace AddsSupertypes

variable (h : p.AddsSupertypes d added supertypes) (hp : p.catalog.Regular)

include h hp

private theorem eq_declared (ht : t ∈ p.catalog.types) (hname : t.name = d.name) : t = d :=
  eq_of_byName? (hp.own t ht) (hp.own d h.declared) hname

omit hp in
theorem mem_kept_iff : s ∈ d.supertypes ↔ s ∈ supertypes ∧ s ∉ added := by
  rw [← h.kept, List.mem_filter, decide_eq_true_iff]

/-- All supertypes are kept, and those that come in are of `d`. -/
theorem mem_supertypes (ht : t ∈ p.catalog.types) :
    (s ∈ t.supertypes → s ∈ (t.withSupertypes d.name supertypes).supertypes) ∧
      (s ∈ (t.withSupertypes d.name supertypes).supertypes → s ∈ t.supertypes ∨ s ∈ added) := by
  by_cases hname : t.name = d.name
  · obtain rfl := h.eq_declared hp ht hname
    rw [TypeDecl.withSupertypes, if_pos rfl]
    refine ⟨fun hs => (h.mem_kept_iff.mp hs).1, fun hs => ?_⟩
    by_cases hadded : s ∈ added
    · exact .inr hadded
    · exact .inl (h.mem_kept_iff.mpr ⟨hs, hadded⟩)
  · rw [TypeDecl.withSupertypes_of_ne hname]
    exact ⟨id, .inl⟩

theorem above (ht : t ∈ p.catalog.types) (habove : p.catalog.Above t u) :
    (p.withSupertypes d.name supertypes).catalog.Above (t.withSupertypes d.name supertypes)
      (u.withSupertypes d.name supertypes) := by
  induction habove with
  | refl => exact .refl
  | tail hbelow hstep ih =>
    obtain ⟨s, hs, hfind⟩ := hstep
    refine ih.tail ⟨s, (h.mem_supertypes hp (Above.mem_types hbelow ht)).1 hs, ?_⟩
    rw [find?_withSupertypes, hfind, Option.map_some]

/-- What lies above a type now lay above it before, or lies above one of the new supertypes. -/
theorem exists_of_above (ht : t ∈ p.catalog.types)
    (habove : (p.withSupertypes d.name supertypes).catalog.Above
      (t.withSupertypes d.name supertypes) v) :
    ∃ u ∈ p.catalog.types, v = u.withSupertypes d.name supertypes ∧
      (p.catalog.Above t u ∨
        ∃ s ∈ added, ∃ w, p.catalog.find? s = some w ∧ p.catalog.Above w u) := by
  induction habove with
  | refl => exact ⟨t, ht, rfl, .inl .refl⟩
  | tail _ hstep ih =>
    obtain ⟨u, hu, rfl, hbelow⟩ := ih
    obtain ⟨s, hs, hfound⟩ := hstep
    rw [find?_withSupertypes] at hfound
    obtain ⟨x, hfind, rfl⟩ := Option.map_eq_some_iff.mp hfound
    refine ⟨x, mem_of_find? hfind, rfl, ?_⟩
    rcases (h.mem_supertypes hp hu).2 hs with hs | hs
    · refine hbelow.imp (fun habove => habove.tail ⟨s, hs, hfind⟩) ?_
      rintro ⟨r, hr, w, hw, habove⟩
      exact ⟨r, hr, w, hw, habove.tail ⟨s, hs, hfind⟩⟩
    · exact .inr ⟨s, hs, x, hfind, .refl⟩

/-- Types that are not below `d` are below the same types. -/
theorem above_of_not_above (ht : t ∈ p.catalog.types) (hd : ¬ p.catalog.Above t d)
    (habove : (p.withSupertypes d.name supertypes).catalog.Above t v) :
    p.catalog.Above t v := by
  induction habove with
  | refl => exact .refl
  | @tail u v _ hstep ih =>
    obtain ⟨s, hs, hfound⟩ := hstep
    have hother {w : TypeDecl} (hw : p.catalog.Above t w) : w.name ≠ d.name := fun hname =>
      hd (h.eq_declared hp (Above.mem_types hw ht) hname ▸ hw)
    rw [find?_withSupertypes] at hfound
    obtain ⟨x, hfind, rfl⟩ := Option.map_eq_some_iff.mp hfound
    have hx : p.catalog.Above t x := ih.tail ⟨s, hs, hfind⟩
    rwa [TypeDecl.withSupertypes_of_ne (hother hx)]

theorem wellNamed (ht : t ∈ p.catalog.types) :
    WellNamed (p.withSupertypes d.name supertypes).catalog
      (t.withSupertypes d.name supertypes) where
  own := by
    rw [TypeDecl.withSupertypes_name, byName?_mapTypes (TypeDecl.withSupertypes_name _ _),
      hp.own t ht, Option.map_some]
  short v hv := by
    obtain ⟨u, hu, rfl, _⟩ := h.exists_of_above hp ht hv
    rw [TypeDecl.withSupertypes_shortName, TypeDecl.withSupertypes_name, hp.short u hu]

/-- A type inherits from a root where it did before. -/
theorem inherits_withSupertypes (ht : t ∈ p.catalog.types)
    (hr : r ∈ p.settings.collectionTypes ++ p.settings.mapTypes) :
    (p.withSupertypes d.name supertypes).catalog.inherits (t.withSupertypes d.name supertypes) r =
      p.catalog.inherits t r := by
  rw [Bool.eq_iff_iff, hp.inherits_iff ht]
  constructor
  · intro hinherits
    obtain ⟨v, hv, hnames⟩ := leadsTo_of_inherits hinherits
    obtain ⟨u, hu, rfl, hbelow⟩ := h.exists_of_above hp ht hv
    rw [TypeDecl.withSupertypes_name, TypeDecl.withSupertypes_shortName] at hnames
    -- Neither a new supertype nor what lies above one leads to the root.
    have hleads : u.name = rawName r ∨ u.shortName = rawName r ∨
        ∃ s ∈ u.supertypes, Hits (rawName r) (rawName s) := by
      refine hnames.imp_right (Or.imp_right ?_)
      rintro ⟨s, hs, hhit⟩
      rcases (h.mem_supertypes hp hu).2 hs with hs | hs
      · exact ⟨s, hs, hhit⟩
      · exact absurd hhit (h.unrooted s hs r hr).1
    rcases hbelow with habove | ⟨s, hs, w, hw, habove⟩
    · exact ⟨u, habove, hleads⟩
    · have hnot := (h.unrooted s hs r hr).2 w hw
      rw [(hp.inherits_iff (mem_of_find? hw)).mpr ⟨u, habove, hleads⟩] at hnot
      cases hnot
  · rintro ⟨u, hu, hnames⟩
    refine inherits_of_leadsTo (h.wellNamed hp ht) ⟨_, h.above hp ht hu, ?_⟩
    rw [TypeDecl.withSupertypes_name, TypeDecl.withSupertypes_shortName]
    refine hnames.imp_right (Or.imp_right ?_)
    rintro ⟨s, hs, hhit⟩
    exact ⟨s, (h.mem_supertypes hp (Above.mem_types hu ht)).1 hs, hhit⟩

/-- Every type is of the kind it was. -/
theorem inheritsAny_withSupertypes {roots : List String} (ht : t ∈ p.catalog.types)
    (hroots : roots ⊆ p.settings.collectionTypes ++ p.settings.mapTypes) :
    (p.withSupertypes d.name supertypes).inheritsAny (t.withSupertypes d.name supertypes) roots =
      p.inheritsAny t roots := by
  unfold inheritsAny
  rw [Bool.eq_iff_iff, List.any_eq_true, List.any_eq_true]
  refine exists_congr fun r => and_congr_right fun hr => ?_
  rw [h.inherits_withSupertypes hp ht (hroots hr)]

theorem isCollection_withSupertypes (ht : t ∈ p.catalog.types) :
    (p.withSupertypes d.name supertypes).isCollection (t.withSupertypes d.name supertypes) =
      p.isCollection t :=
  h.inheritsAny_withSupertypes hp ht (List.subset_append_left _ _)

theorem isMap_withSupertypes (ht : t ∈ p.catalog.types) :
    (p.withSupertypes d.name supertypes).isMap (t.withSupertypes d.name supertypes) = p.isMap t :=
  h.inheritsAny_withSupertypes hp ht (List.subset_append_right _ _)

theorem classify_withSupertypes (ht : t ∈ p.catalog.types) :
    (p.withSupertypes d.name supertypes).classify (t.withSupertypes d.name supertypes) =
      p.classify t := by
  rw [classify, classify, h.isCollection_withSupertypes hp ht, TypeDecl.withSupertypes_kind,
    TypeDecl.withSupertypes_name]
  rfl

/-- What is below the collection is a collection. -/
theorem isCollection_of_above (ht : t ∈ p.catalog.types) (habove : p.catalog.Above t d) :
    p.isCollection t = true := by
  obtain ⟨r, hr, hinherits⟩ := List.any_eq_true.mp h.collection
  obtain ⟨u, hu, hnames⟩ := leadsTo_of_inherits hinherits
  exact List.any_eq_true.mpr ⟨r, hr, (hp.inherits_iff ht).mpr ⟨u, habove.trans hu, hnames⟩⟩

theorem withSupertypes_eq (ht : t ∈ p.catalog.types) (hd : ¬ p.catalog.Above t d) :
    t.withSupertypes d.name supertypes = t := by
  refine TypeDecl.withSupertypes_of_ne (fun hname => hd ?_) supertypes
  obtain rfl := h.eq_declared hp ht hname
  exact .refl

theorem inherits_of_not_above (ht : t ∈ p.catalog.types) (hd : ¬ p.catalog.Above t d)
    (base : String) :
    (p.withSupertypes d.name supertypes).catalog.inherits t base = p.catalog.inherits t base := by
  have hself := h.withSupertypes_eq hp ht hd
  have hother {u : TypeDecl} (hu : p.catalog.Above t u) :
      u.withSupertypes d.name supertypes = u :=
    h.withSupertypes_eq hp (Above.mem_types hu ht) fun hbelow => hd (hu.trans hbelow)
  rw [Bool.eq_iff_iff, hp.inherits_iff ht]
  constructor
  · intro hinherits
    obtain ⟨u, hu, hnames⟩ := leadsTo_of_inherits hinherits
    exact ⟨u, h.above_of_not_above hp ht hd hu, hnames⟩
  · rintro ⟨u, hu, hnames⟩
    have habove := h.above hp ht hu
    have hwell := h.wellNamed hp ht
    rw [hself, hother hu] at habove
    rw [hself] at hwell
    exact inherits_of_leadsTo hwell ⟨u, habove, hnames⟩

/-- Types that are not below the collection have the ancestors they had. -/
theorem ancestors_of_not_above (ht : t ∈ p.catalog.types) (hd : ¬ p.catalog.Above t d) :
    (p.withSupertypes d.name supertypes).catalog.ancestors t = p.catalog.ancestors t := by
  have hnames : (p.withSupertypes d.name supertypes).catalog.types.map (·.name) =
      p.catalog.types.map (·.name) := by
    simp [mapTypes]
  have hother : ∀ e ∈ p.catalog.ancestors t,
      e.1.withSupertypes d.name supertypes = e.1 := by
    intro e he
    obtain ⟨_, hu⟩ := (mem_ancestors_iff (hp.own t ht) hp.plain).mp (List.mem_map_of_mem he)
    exact h.withSupertypes_eq hp (Above.mem_types hu ht) fun hbelow => hd (hu.trans hbelow)
  have hsame := above_of_known (TypeDecl.withSupertypes_name d.name supertypes)
    (TypeDecl.withSupertypes_parameters d.name supertypes)
    (find?_withSupertypes (p := p) d.name supertypes)
    (fun e he => congrArg _ (congrArg _ (congrArg TypeDecl.supertypes (hother e he)))) rfl
  rw [Catalog.ancestors, hnames]
  refine hsame.trans ((List.map_congr_left fun e he => ?_).trans (List.map_id' _))
  rw [hother e he]

end AddsSupertypes

/-- The type lies above one of the references. -/
def LiesAbove (p : Project) (references : List String) (t : TypeDecl) : Prop :=
  ∃ s ∈ references, ∃ u, p.catalog.find? s = some u ∧ ∃ v, p.catalog.Above u v ∧ v.name = t.name

open Classical in
noncomputable def liesAbove (p : Project) (references : List String) (t : TypeDecl) : Bool :=
  decide (p.LiesAbove references t)

theorem liesAbove_iff {references : List String} :
    p.liesAbove references t = true ↔ p.LiesAbove references t := by
  simp [liesAbove]

private theorem liesAbove_withSupertypes (references : List String) (t : TypeDecl) :
    p.liesAbove references (t.withSupertypes d.name supertypes) = p.liesAbove references t := by
  rw [Bool.eq_iff_iff, liesAbove_iff, liesAbove_iff, LiesAbove, TypeDecl.withSupertypes_name]
  rfl

namespace AddsSupertypes

variable (h : p.AddsSupertypes d added supertypes) (hp : p.catalog.Regular)

include h hp in
/-- Of the supertypes of a type, those that lead to types that are not set aside are the same. -/
theorem filter_known_supertypes {b : Bindings} (ht : t ∈ p.catalog.types)
    (hb : ∀ k ∈ b.keys, k ∈ t.parameters) :
    ((t.withSupertypes d.name supertypes).supertypes.map fun s => (s, b)).filter
        (known (passing p.catalog.find? (p.liesAbove added))) =
      (t.supertypes.map fun s => (s, b)).filter
        (known (passing p.catalog.find? (p.liesAbove added))) := by
  by_cases hname : t.name = d.name
  · obtain rfl := h.eq_declared hp ht hname
    have hleft (s : String) : (known (passing p.catalog.find? (p.liesAbove added)) (s, b) &&
        decide (s ∉ added)) = known (passing p.catalog.find? (p.liesAbove added)) (s, b) := by
      by_cases hs : s ∈ added
      · have hraw : rawName (substitute b s) = rawName s :=
          rawName_substitute_of_not_mentions fun k hk => h.plain s hs k (hb k hk)
        have hnone : passing p.catalog.find? (p.liesAbove added) (substitute b s) = none := by
          refine passing_of_aside fun u hu => liesAbove_iff.mpr ⟨s, hs, u, ?_, u, .refl, rfl⟩
          rwa [find?_of_rawName hraw] at hu
        simp [known, hnone]
      · simp [hs]
    rw [TypeDecl.withSupertypes_supertypes rfl, ← h.kept, List.filter_map, List.filter_map,
      List.filter_filter]
    simp only [Function.comp_def, hleft]
  · rw [TypeDecl.withSupertypes_of_ne hname]

variable (hadded : ∀ s ∈ added, ∀ u, p.catalog.find? s = some u →
    ∀ v, p.catalog.Above u v → v.parameters = [])

include hp hadded

omit h in
private theorem setsAside : p.catalog.SetsAside (p.liesAbove added) := by
  have hfound {s : String} {t : TypeDecl} (hs : p.catalog.find? s = some t)
      (ht : p.liesAbove added t = true) :
      ∃ r ∈ added, ∃ u, p.catalog.find? r = some u ∧ p.catalog.Above u t := by
    obtain ⟨r, hr, u, hu, v, hv, hname⟩ := liesAbove_iff.mp ht
    have hsame : v = t := eq_of_byName? (hp.own v (Above.mem_types hv (mem_of_find? hu)))
      (byName?_of_find? hs) hname
    exact ⟨r, hr, u, hu, hsame ▸ hv⟩
  constructor
  · intro s t hs ht
    obtain ⟨r, hr, u, hu, habove⟩ := hfound hs ht
    exact hadded r hr u hu t habove
  · intro s t hs ht r hr u hu
    obtain ⟨r', hr', w, hw, habove⟩ := hfound hs ht
    exact liesAbove_iff.mpr ⟨r', hr', w, hw, u, habove.tail ⟨r, hr, hu⟩, rfl⟩

include h

private theorem setsAside_withSupertypes :
    (p.withSupertypes d.name supertypes).catalog.SetsAside (p.liesAbove added) := by
  have hp' := setsAside hp hadded
  have hfound {s : String} {t : TypeDecl}
      (hs : (p.withSupertypes d.name supertypes).catalog.find? s = some t)
      (ht : p.liesAbove added t = true) :
      ∃ u, p.catalog.find? s = some u ∧ t = u.withSupertypes d.name supertypes ∧
        p.liesAbove added u = true := by
    rw [find?_withSupertypes] at hs
    obtain ⟨u, hu, rfl⟩ := Option.map_eq_some_iff.mp hs
    rw [liesAbove_withSupertypes] at ht
    exact ⟨u, hu, rfl, ht⟩
  constructor
  · intro s t hs ht
    obtain ⟨u, hu, rfl, haside⟩ := hfound hs ht
    rw [TypeDecl.withSupertypes_parameters]
    exact hp'.parameters s u hu haside
  · intro s t hs ht r hr v hv
    obtain ⟨u, hu, rfl, haside⟩ := hfound hs ht
    rw [find?_withSupertypes] at hv
    obtain ⟨w, hw, rfl⟩ := Option.map_eq_some_iff.mp hv
    rw [liesAbove_withSupertypes]
    rcases (h.mem_supertypes hp (mem_of_find? hu)).2 hr with hr | hr
    · exact hp'.supertypes s u hu haside r hr w hw
    · exact liesAbove_iff.mpr ⟨r, hr, w, hw, w, .refl, rfl⟩

/-- What is bound above a type stays the same if nothing above the new supertypes has parameters. -/
theorem inheritedElement_withSupertypes (ht : t ∈ p.catalog.types) :
    Shape.inheritedElement (p.withSupertypes d.name supertypes)
        (t.withSupertypes d.name supertypes) = Shape.inheritedElement p t := by
  have hnames : (p.withSupertypes d.name supertypes).catalog.types.map (·.name) =
      p.catalog.types.map (·.name) := by
    simp [mapTypes]
  have hpassing (s : String) :
      passing (p.withSupertypes d.name supertypes).catalog.find? (p.liesAbove added) s =
        (passing p.catalog.find? (p.liesAbove added) s).map
          (·.withSupertypes d.name supertypes) := by
    simp only [passing, find?_withSupertypes, Option.filter_map, Function.comp_def,
      liesAbove_withSupertypes]
  have habove (left : List String) (queue : List (String × Bindings)) :
      ∀ e ∈ Catalog.above (passing p.catalog.find? (p.liesAbove added)) left queue,
        ((e.1.withSupertypes d.name supertypes).supertypes.map fun s => (s, e.2)).filter
            (known (passing p.catalog.find? (p.liesAbove added))) =
          (e.1.supertypes.map fun s => (s, e.2)).filter
            (known (passing p.catalog.find? (p.liesAbove added))) := by
    intro e he
    obtain ⟨w, hw, hb⟩ := find?_of_mem_above he
    have hfind := (Option.filter_eq_some_iff.mp hw).1
    exact h.filter_known_supertypes hp (mem_of_find? hfind) fun k hk =>
      mem_keys_bind (hb ▸ hk)
  have hnothing : ∀ k ∈ OrderedMap.keys ([] : Bindings), k ∈ t.parameters := List.forall_mem_nil _
  have hsame := above_of_known (TypeDecl.withSupertypes_name d.name supertypes)
    (TypeDecl.withSupertypes_parameters d.name supertypes) hpassing
    (habove (without t.name (p.catalog.types.map (·.name))) _)
    (h.filter_known_supertypes hp ht hnothing)
  have hbound : Shape.boundElement? (p.withSupertypes d.name supertypes)
      (t.withSupertypes d.name supertypes) = Shape.boundElement? p t := by
    have hbefore := (setsAside hp hadded).findSome?_ancestors t
    have hafter := (h.setsAside_withSupertypes hp hadded).findSome?_ancestors
      (t.withSupertypes d.name supertypes)
    rw [hnames, TypeDecl.withSupertypes_name, hsame, List.findSome?_map] at hafter
    exact hafter.trans hbefore.symm
  rw [Shape.inheritedElement_eq, Shape.inheritedElement_eq, hbound,
    TypeDecl.withSupertypes_parameters]

end AddsSupertypes

end Project

end EndpointDocs

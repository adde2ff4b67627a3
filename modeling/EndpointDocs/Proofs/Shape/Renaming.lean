import EndpointDocs.Proofs.Member.Renaming
import EndpointDocs.Proofs.Shape.Following

namespace EndpointDocs

open TypeText

namespace Project

variable {q : Project} {x y : String} {t : TypeDecl}

private theorem isCollection_rename (h : q.StandsFor x y) (hw : q.LegibleHierarchy x y)
    (ht : t ∈ q.catalog.types) :
    (q.mapTypes (·.renameParameter y x)).isCollection (t.renameParameter y x) =
      q.isCollection t := by
  have hbases : ∀ b ∈ q.settings.collectionTypes, b ∈ q.knownNames :=
    fun _ hb => mem_knownNames (by simp [nameLists]) hb
  exact inheritsAny_rename h hw ht hbases

private theorem isMap_rename (h : q.StandsFor x y) (hw : q.LegibleHierarchy x y)
    (ht : t ∈ q.catalog.types) :
    (q.mapTypes (·.renameParameter y x)).isMap (t.renameParameter y x) = q.isMap t := by
  have hbases : ∀ b ∈ q.settings.mapTypes, b ∈ q.knownNames :=
    fun _ hb => mem_knownNames (by simp [nameLists]) hb
  exact inheritsAny_rename h hw ht hbases

private theorem classify_rename (h : q.StandsFor x y) (hw : q.LegibleHierarchy x y)
    (ht : t ∈ q.catalog.types) :
    (q.mapTypes (·.renameParameter y x)).classify (t.renameParameter y x) = q.classify t := by
  rw [classify, isCollection_rename h hw ht, classify]
  rfl

end Project

namespace Shape

/-- A step that says the same of references with `y` renamed to `x`. -/
inductive Renamed (x y : String) {a b : String} : Step a → Step b → Prop
  | nothing : Renamed x y (.settled .nothing) (.settled .nothing)
  | plain (d : DataType) : Renamed x y (.settled (.plain d)) (.settled (.plain d))
  | known (d : DataType) (values : Option (List KnownValue)) :
      Renamed x y (.settled (.known d values)) (.settled (.known d values))
  | members (t : TypeDecl) (arguments : List String) :
      Renamed x y (.settled (.members (rawName a) t arguments))
        (.settled (.members (rawName b) (t.renameParameter y x) (arguments.map (rename y x))))
  | list {items : String} (alone : Alone y items) {h h'} :
      Renamed x y (.list items h) (.list (rename y x items) h')
  | map {value : String} (alone : Alone y value) {h h'} :
      Renamed x y (.map value h) (.map (rename y x value) h')
  | elements {owner items : String} (alone : Alone y items) :
      Renamed x y (.elements owner items) (.elements owner (rename y x items))

/-- Reading the reference takes no name for another one when `y` is called `x`: it reads `y` only
where nothing is known as `x`, and binding the parameters of a type captures nothing. -/
structure Clear (q : Project) (x y text : String) : Prop where
  read : q.Knows x → y ∉ names (rawName text)
  members : ∀ name t arguments, step q text = .settled (.members name t arguments) →
    ∀ m ∈ Member.ofType q t, m.isShown (q.settings.typeOverride? name (some t)) = true →
      KeepsApart y x t.parameters (names m.typeText)
  returned : x ∈ voidNames → ∀ name t arguments,
    step q text = .settled (.members name t arguments) → Member.hasAccessors q t = true →
      ∀ m ∈ q.catalog.allMethods t, y ∉ names (rawName m.returnType)
  elements : ∀ t element, q.catalog.find? text = some t →
    step q text = .elements t.name (inheritedElement q t) → boundElement? q t = some element →
      ∀ k ∈ t.parameters, renameName y x k = rename y x element → k = element

variable {q : Project} {x y text : String} {t : TypeDecl}

private theorem boundElement?_rename (h : q.StandsFor x y) (hw : q.LegibleHierarchy x y)
    (ht : t ∈ q.catalog.types) :
    boundElement? (q.mapTypes (·.renameParameter y x)) (t.renameParameter y x) =
      (boundElement? q t).map (rename y x) := by
  rw [boundElement?, Project.ancestors_rename h (hw t ht) ht, List.findSome?_map, boundElement?,
    List.map_findSome?]
  congr 1
  funext e
  simp [renameBindings, OrderedMap.mapEntries, OrderedMap.values, Function.comp_def]

private theorem inheritedElement_rename (h : q.StandsFor x y) (hw : q.LegibleHierarchy x y)
    (ht : t ∈ q.catalog.types) (hclear : ∀ element, boundElement? q t = some element →
      ∀ k ∈ t.parameters, renameName y x k = rename y x element → k = element) :
    inheritedElement (q.mapTypes (·.renameParameter y x)) (t.renameParameter y x) =
      rename y x (inheritedElement q t) := by
  have hempty : rename y x "" = "" :=
    (substitute_eq_empty_iff (putsNames_rename y h.parameter)).mpr rfl
  rw [inheritedElement_eq, boundElement?_rename h hw ht, inheritedElement_eq]
  cases helement : boundElement? q t with
  | none => exact hempty.symm
  | some element =>
    have hparameters : rename y x element ∈ (t.renameParameter y x).parameters ↔
        element ∈ t.parameters := by
      constructor
      · intro hmem
        obtain ⟨k, hk, heq⟩ := List.mem_map.mp hmem
        exact hclear element helement k hk heq ▸ hk
      · intro hmem
        refine List.mem_map.mpr ⟨element, hmem, ?_⟩
        exact (rename_eq_renameName h.fresh (h.apart t ht element hmem)).symm
    simp only [Option.map_some, Option.getD_some, hparameters]
    split
    · exact hempty.symm
    · rfl

private theorem alone_of_boundElement? (hw : q.LegibleHierarchy x y) (ht : t ∈ q.catalog.types)
    {element : String} (h : boundElement? q t = some element) : Alone y element := by
  obtain ⟨e, he, hhead⟩ := List.exists_of_findSome?_eq_some h
  obtain ⟨w, hwritten, _, hbind⟩ := Catalog.mem_ancestors he
  have hmem : element ∈ e.2.values := List.mem_of_head? hhead
  rw [hbind] at hmem
  exact (hw t ht w hwritten).alone.arguments (mem_values_bind hmem)

private theorem alone_inheritedElement (h : q.StandsFor x y) (hw : q.LegibleHierarchy x y)
    (ht : t ∈ q.catalog.types) : Alone y (inheritedElement q t) := by
  have hempty : Alone y "" := alone_of_not_hasEnding (not_hasEnding_empty h.fresh.1)
  rw [inheritedElement_eq]
  cases helement : boundElement? q t with
  | none => exact hempty
  | some element =>
    rw [Option.map_some, Option.getD_some]
    split
    · exact hempty
    · exact alone_of_boundElement? hw ht helement

private theorem stepType_rename (h : q.StandsFor x y) (hw : q.LegibleHierarchy x y)
    (ht : t ∈ q.catalog.types) (halone : Alone y text)
    (hclear : stepType q text t = .elements t.name (inheritedElement q t) →
      ∀ element, boundElement? q t = some element →
        ∀ k ∈ t.parameters, renameName y x k = rename y x element → k = element) :
    Renamed x y (stepType q text t)
      (stepType (q.mapTypes (·.renameParameter y x)) (rename y x text)
        (t.renameParameter y x)) := by
  have hclass := Project.classify_rename h hw ht
  have hloose : ((q.mapTypes (·.renameParameter y x)).isMap (t.renameParameter y x) ||
      (q.mapTypes (·.renameParameter y x)).isTop (t.renameParameter y x)) =
        (q.isMap t || q.isTop t) := by
    rw [Project.isMap_rename h hw ht]
    rfl
  have hargs := Project.arguments_rename h text
  obtain ⟨s, hs⟩ : ∃ s, stepType q text t = s := ⟨_, rfl⟩
  rw [hs] at hclear ⊢
  cases stepType_eq_iff.mp hs with
  | file hfile =>
    rw [(ReadingOf.file (hclass.trans hfile)).eq]
    exact .plain _
  | anything hfile hopen hfew =>
    have hfew' : (arguments (rename y x text)).length ≤ 1 := by
      rw [hargs, List.length_map]
      exact hfew
    rw [(ReadingOf.anything (hclass.trans_ne hfile) (hloose.trans hopen) hfew').eq]
    exact .plain _
  | @map first value rest _ hfile hopen hgiven =>
    have hgiven' := hargs.trans (congrArg (List.map (rename y x)) hgiven)
    have hreading : ReadingOf (q.mapTypes (·.renameParameter y x)) (rename y x text)
        (t.renameParameter y x)
        (.map (rename y x value) (arguments_length (by simp [hgiven']))) :=
      .map (hclass.trans_ne hfile) (hloose.trans hopen) hgiven'
    rw [hreading.eq]
    exact .map (halone.arguments (hgiven ▸ List.mem_cons_of_mem _ List.mem_cons_self))
  | @component items hown harray hholds =>
    have hend := h.component t ht items hholds
    have hkeep : rename y x items = items :=
      rename_of_not_mem (Project.not_mem_names_of_not_hasEnding h.fresh.1 hend)
    have helements := @Renamed.elements x y text (rename y x text) t.name items
      (alone_of_not_hasEnding hend)
    rw [(ReadingOf.component (hloose.trans hown) (hclass.trans harray) hholds).eq]
    rwa [hkeep] at helements
  | @list items rest _ hown harray hholds hgiven =>
    have hgiven' := hargs.trans (congrArg (List.map (rename y x)) hgiven)
    have hreading : ReadingOf (q.mapTypes (·.renameParameter y x)) (rename y x text)
        (t.renameParameter y x)
        (.list (rename y x items) (arguments_length (by simp [hgiven']))) :=
      .list (hloose.trans hown) (hclass.trans harray) hholds hgiven'
    rw [hreading.eq]
    exact .list (halone.arguments (hgiven ▸ List.mem_cons_self))
  | inherited hown harray hholds hbare =>
    have hbare' := hargs.trans (congrArg (List.map (rename y x)) hbare)
    rw [(ReadingOf.inherited (hloose.trans hown) (hclass.trans harray) hholds hbare').eq,
      inheritedElement_rename h hw ht (hclear rfl)]
    exact .elements (alone_inheritedElement h hw ht)
  | members hown hobject =>
    rw [(ReadingOf.members (hloose.trans hown) (hclass.trans hobject)).eq, hargs]
    exact .members t (arguments text)
  | known hown hfile hscalar =>
    have hscalar' := (congrArg DataType.isScalar hclass).trans hscalar
    rw [(ReadingOf.known (hloose.trans hown) (hclass.trans_ne hfile) hscalar').eq, hclass]
    exact .known _ _

theorem Clear.legible (hclear : Clear q x y text) (halone : Alone y text) : q.Legible x y text where
  alone := halone
  unread := by
    by_cases hx : q.Knows x
    · exact .inl (hclear.read hx)
    · exact .inr hx

theorem clear_of_plain {d : DataType} (hx : ¬ q.Knows x) (hvoid : x ∉ voidNames)
    (h : step q text = .settled (.plain d)) : Clear q x y text where
  read := fun hknows => absurd hknows hx
  returned := fun hmem => absurd hmem hvoid
  members := by
    intro name t arguments hstep
    rw [h] at hstep
    cases hstep
  elements := by
    intro t element _ hstep
    rw [h] at hstep
    cases hstep

/-- A reference with the parameter renamed says what it said before. -/
theorem step_rename (h : q.StandsFor x y) (hw : q.LegibleHierarchy x y) (halone : Alone y text)
    (hclear : Clear q x y text) :
    Renamed x y (step q text) (step (q.mapTypes (·.renameParameter y x)) (rename y x text)) := by
  have hlegible := hclear.legible halone
  have hputs : PutsNames [(y, x)] := putsNames_rename y h.parameter
  have htrim : Text.trim (rename y x text) = "" ↔ Text.trim text = "" := by
    rw [rename, trim_substitute hputs]
    exact substitute_eq_empty_iff hputs
  by_cases hempty : Text.trim text = ""
  · rw [step, if_pos hempty, step, if_pos (htrim.mpr hempty)]
    exact .plain _
  have hne := mt htrim.mp hempty
  have hcomponent : component? (rename y x text) = (component? text).map (rename y x) :=
    component?_substitute hputs text
  cases hitems : component? text with
  | some items =>
    rw [hitems, Option.map_some] at hcomponent
    rw [step_of_component? hitems hempty, step_of_component? hcomponent hne]
    exact .list (halone.of_subset fun _ hn => names_component? hitems hn)
  | none =>
    rw [hitems, Option.map_none] at hcomponent
    have hscalars : (q.mapTypes (·.renameParameter y x)).scalars = q.scalars := rfl
    rw [step_of_component?_eq_none hitems hempty, step_of_component?_eq_none hcomponent hne,
      hscalars, hlegible.isVoid_rename h, Project.named?_rename h hlegible,
      Project.loose?_rename h hlegible, Project.find?_renamed h hlegible]
    by_cases hvoid : isVoid text = true
    · rw [if_pos hvoid, if_pos hvoid]
      exact .nothing
    rw [if_neg hvoid, if_neg hvoid]
    cases hnamed : Scalar.named? q.scalars text with
    | some d => exact .plain d
    | none =>
      cases hfind : q.catalog.find? text with
      | none => exact .plain _
      | some t =>
        refine stepType_rename h hw (Catalog.mem_of_find? hfind) halone ?_
        intro hstep element
        apply hclear.elements t element hfind
        rw [step_of_find? hempty hitems (by simpa using hvoid) hnamed hfind, hstep]

end Shape

end EndpointDocs

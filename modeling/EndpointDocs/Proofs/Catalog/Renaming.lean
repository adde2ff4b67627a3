import EndpointDocs.DateFormat
import EndpointDocs.Proofs.Declaration.References
import EndpointDocs.Proofs.TypeText.Renaming

namespace EndpointDocs

open TypeText

namespace TypeDecl

/-- The type with its parameter `x` called `y`. -/
def renameParameter (x y : String) (t : TypeDecl) : TypeDecl :=
  { t.mapReferences (rename x y) with parameters := t.parameters.map (renameName x y) }

/-- The type, with its parameter renamed if it is the one called `owner`. -/
def renamedIn (owner x y : String) (t : TypeDecl) : TypeDecl :=
  if t.name = owner then t.renameParameter x y else t

/-- The type uses the name as a parameter or in a reference. -/
def Uses (t : TypeDecl) (x : String) : Prop :=
  x ∈ t.parameters ∨ ∃ text ∈ t.references, x ∈ names text

variable {t : TypeDecl} {x y : String}

private theorem not_uses_renameParameter (hx : x ≠ "") (hy : IsIdentifier y) (hne : x ≠ y) :
    ¬ (t.renameParameter x y).Uses x := by
  rintro (hparameter | ⟨text, htext, hmem⟩)
  · obtain ⟨k, _, hk⟩ := List.mem_map.mp hparameter
    rw [renameName] at hk
    split at hk
    · exact hne hk.symm
    · contradiction
  · change text ∈ (t.mapReferences (rename x y)).references at htext
    rw [references_mapReferences] at htext
    obtain ⟨s, _, rfl⟩ := List.mem_map.mp htext
    exact not_mem_names_rename hx hy hne hmem

private theorem renameParameter_of_not_uses (h : ¬ t.Uses x) : t.renameParameter x y = t := by
  have hparameters : t.parameters.map (renameName x y) = t.parameters := by
    apply map_of_fixed
    intro k hk
    have hne : k ≠ x := fun heq => h (.inl (heq ▸ hk))
    rw [renameName, if_neg hne]
  have hreferences : t.mapReferences (rename x y) = t := by
    apply mapReferences_of_fixed
    exact fun text htext => rename_of_not_mem fun hmem => h (.inr ⟨text, htext, hmem⟩)
  rw [renameParameter, hreferences, hparameters]

/-- A name that the type does not use can be put in and taken out again. -/
theorem renameParameter_renameParameter (hx : IsIdentifier x) (hy : IsIdentifier y)
    (h : ¬ t.Uses y) : (t.renameParameter x y).renameParameter y x = t := by
  have hparameters : (t.parameters.map (renameName x y)).map (renameName y x) = t.parameters := by
    rw [List.map_map]
    apply map_of_fixed
    intro k hk
    have hne : k ≠ y := fun heq => h (.inl (heq ▸ hk))
    rw [Function.comp_apply, renameName, renameName]
    split_ifs <;> simp_all
  have hreferences : (t.mapReferences (rename x y)).mapReferences (rename y x) = t := by
    rw [mapReferences_mapReferences]
    apply mapReferences_of_fixed
    exact fun text htext => rename_rename hx hy fun hmem => h (.inr ⟨text, htext, hmem⟩)
  change { (t.mapReferences (rename x y)).mapReferences (rename y x) with
    parameters := (t.parameters.map (renameName x y)).map (renameName y x) } = t
  rw [hreferences, hparameters]

theorem keepsApart_of_unmixed (h : ¬ t.Uses x ∨ ¬ t.Uses y) {text : String}
    (htext : text ∈ t.references) : KeepsApart y x t.parameters (names text) := by
  intro k hk n hn
  have hunused {z : String} (hz : ¬ t.Uses z) : z ∉ t.parameters ++ names text := by
    intro hmem
    rcases List.mem_append.mp hmem with hmem | hmem
    · exact hz (.inl hmem)
    · exact hz (.inr ⟨text, htext, hmem⟩)
  exact (renameName_eq_iff (h.symm.imp hunused hunused) (List.mem_append_left _ hk)
    (List.mem_append_right _ hn)).mp

end TypeDecl

namespace Project

def mapTypes (g : TypeDecl → TypeDecl) (p : Project) : Project :=
  { p with catalog := { p.catalog with types := p.catalog.types.map g } }

/-- The project with the parameter `x` of the type called `owner` renamed to `y`. -/
def renameParameter (p : Project) (owner x y : String) : Project :=
  p.mapTypes (·.renamedIn owner x y)

/-- The names that references are compared with: those of types and of scalars, those that the
settings recognise types by, and those with a meaning of their own. -/
def nameLists (p : Project) : List (List String) :=
  [p.catalog.types.map (·.name), p.catalog.types.map (·.shortName), p.catalog.shortNames.keys,
    p.scalars.map (·.name), p.scalars.map (·.shortName),
    p.settings.types.keys, p.settings.collectionTypes, p.settings.mapTypes,
    p.settings.accessorBaseTypes, p.settings.dateTypes,
    voidNames, DateFormat.dateOnlyTypes, DateFormat.timeOnlyTypes]

def knownNames (p : Project) : List String :=
  p.nameLists.flatten

/-- Something that the project knows is called `x`, with or without a path in front. -/
def Knows (p : Project) (x : String) : Prop :=
  ∃ n ∈ p.knownNames, HasEnding n x

/-- The name occurs in the project. -/
def Mentions (p : Project) (x : String) : Prop :=
  p.Knows x ∨ ∃ t ∈ p.catalog.types, ∃ text ∈ t.parameters ++ t.component.toList ++ t.references,
    HasEnding text x

/-- The parameter `x` of the type called `owner` can be called `y`. -/
structure CanRename (p : Project) (owner x y : String) : Prop where
  parameter : IsIdentifier x
  fresh : IsIdentifier y
  declared : ∃ t ∈ p.catalog.types, t.name = owner ∧ x ∈ t.parameters
  unmentioned : ¬ p.Mentions y

/-- `y` is nothing but a parameter, in the place of one that could be called `x`: nothing is known
by it, no type uses both names, and where it is used it is a name of its own. -/
structure StandsFor (q : Project) (x y : String) : Prop where
  parameter : IsIdentifier x
  fresh : IsIdentifier y
  unknown : ¬ q.Knows y
  unmixed : ∀ t ∈ q.catalog.types, ¬ t.Uses x ∨ ¬ t.Uses y
  alone : ∀ t ∈ q.catalog.types, ∀ text ∈ t.references, Alone y text
  component : ∀ t ∈ q.catalog.types, ∀ text, t.component = some text → ¬ HasEnding text y
  apart : ∀ t ∈ q.catalog.types, ∀ k ∈ t.parameters, k ≠ y → y ∉ names k

variable {p : Project} {owner x y text : String} {t : TypeDecl}

theorem mem_knownNames {l : List String} {n : String} (hl : l ∈ p.nameLists) (hn : n ∈ l) :
    n ∈ p.knownNames :=
  List.mem_flatten.mpr ⟨l, hl, hn⟩

/-- A name is known from a scalar or without the scalars. -/
theorem mem_knownNames_cases {n : String} (h : n ∈ p.knownNames) :
    n ∈ { p with scalars := [] }.knownNames ∨ ∃ s ∈ p.scalars, n = s.name ∨ n = s.shortName := by
  by_cases hname : n ∈ p.scalars.map (·.name)
  · obtain ⟨s, hs, rfl⟩ := List.mem_map.mp hname
    exact .inr ⟨s, hs, .inl rfl⟩
  by_cases hshort : n ∈ p.scalars.map (·.shortName)
  · obtain ⟨s, hs, rfl⟩ := List.mem_map.mp hshort
    exact .inr ⟨s, hs, .inr rfl⟩
  left
  simp only [knownNames, nameLists, List.flatten_cons, List.mem_append, List.map_nil,
    List.not_mem_nil, hname, hshort, false_or] at h ⊢
  exact h

theorem not_mem_names_of_not_hasEnding (hx : x ≠ "") (h : ¬ HasEnding text x) :
    x ∉ names text :=
  fun hmem => h (hasEnding_of_mem_names hx hmem)

theorem CanRename.not_hasEnding (h : p.CanRename owner x y) (ht : t ∈ p.catalog.types)
    (htext : text ∈ t.parameters ++ t.component.toList ++ t.references) : ¬ HasEnding text y :=
  fun hend => h.unmentioned (.inr ⟨t, ht, text, htext, hend⟩)

theorem CanRename.not_uses (h : p.CanRename owner x y) (ht : t ∈ p.catalog.types) :
    ¬ t.Uses y := by
  rintro (hparameter | ⟨text, htext, hmem⟩)
  · have hend : ¬ HasEnding y y := h.not_hasEnding ht (by simp [hparameter])
    exact hend (hasEnding_of_mem_names h.fresh.1 (by simp [names_of_isIdentifier h.fresh]))
  · have hend : ¬ HasEnding text y := h.not_hasEnding ht (by simp [htext])
    exact hend (hasEnding_of_mem_names h.fresh.1 hmem)

theorem CanRename.ne (h : p.CanRename owner x y) : x ≠ y := by
  rintro rfl
  obtain ⟨t, ht, _, hparameter⟩ := h.declared
  exact h.not_uses ht (.inl hparameter)

private theorem knownNames_mapTypes {g : TypeDecl → TypeDecl} (hname : ∀ t, (g t).name = t.name)
    (hshort : ∀ t, (g t).shortName = t.shortName) : (p.mapTypes g).knownNames = p.knownNames := by
  simp [knownNames, nameLists, mapTypes, Function.comp_def, hname, hshort]

private theorem renamedIn_name : (t.renamedIn owner x y).name = t.name := by
  unfold TypeDecl.renamedIn
  split <;> rfl

private theorem renamedIn_shortName : (t.renamedIn owner x y).shortName = t.shortName := by
  unfold TypeDecl.renamedIn
  split <;> rfl

private theorem renamedIn_component : (t.renamedIn owner x y).component = t.component := by
  unfold TypeDecl.renamedIn
  split <;> rfl

private theorem knows_renameParameter :
    (p.renameParameter owner x y).Knows text ↔ p.Knows text := by
  rw [Knows, renameParameter, knownNames_mapTypes (fun _ => renamedIn_name)
    fun _ => renamedIn_shortName, Knows]

theorem CanRename.alone (h : p.CanRename owner x y) (ht : t ∈ p.catalog.types)
    (htext : text ∈ (t.renamedIn owner x y).references) : Alone y text := by
  have hunused {s : String} (hs : s ∈ t.references) : ¬ HasEnding s y :=
    h.not_hasEnding ht (by simp [hs])
  unfold TypeDecl.renamedIn at htext
  split at htext
  · change text ∈ (t.mapReferences (rename x y)).references at htext
    rw [TypeDecl.references_mapReferences] at htext
    obtain ⟨s, hs, rfl⟩ := List.mem_map.mp htext
    intro n hn hend
    rcases names_rename h.fresh hn with hn | hn
    · exact absurd ⟨n, hn, hend⟩ (hunused hs)
    · exact hn
  · exact fun n hn hend => absurd ⟨n, hn, hend⟩ (hunused htext)

/-- The new name is nothing but a parameter. -/
theorem CanRename.standsFor (h : p.CanRename owner x y) :
    (p.renameParameter owner x y).StandsFor x y where
  parameter := h.parameter
  fresh := h.fresh
  unknown := mt knows_renameParameter.mp fun hk => h.unmentioned (.inl hk)
  unmixed := by
    intro t' ht'
    obtain ⟨t, ht, rfl⟩ := List.mem_map.mp ht'
    unfold TypeDecl.renamedIn
    split
    · exact .inl (TypeDecl.not_uses_renameParameter h.parameter.1 h.fresh h.ne)
    · exact .inr (h.not_uses ht)
  alone := by
    intro t' ht' text htext
    obtain ⟨t, ht, rfl⟩ := List.mem_map.mp ht'
    exact h.alone ht htext
  component := by
    intro t' ht' text htext
    obtain ⟨t, ht, rfl⟩ := List.mem_map.mp ht'
    rw [renamedIn_component] at htext
    exact h.not_hasEnding ht (by simp [htext])
  apart := by
    intro t' ht' k hk hne
    obtain ⟨t, ht, rfl⟩ := List.mem_map.mp ht'
    refine not_mem_names_of_not_hasEnding h.fresh.1 (h.not_hasEnding ht ?_)
    rw [List.append_assoc]
    apply List.mem_append_left
    unfold TypeDecl.renamedIn at hk
    split at hk
    · obtain ⟨k', hk', rfl⟩ := List.mem_map.mp hk
      have hkeep : renameName x y k' = k' := if_neg fun heq => hne (if_pos heq)
      rwa [hkeep]
    · exact hk

/-- Renaming the parameter back gives the project again. -/
theorem CanRename.renamed_back (h : p.CanRename owner x y) :
    (p.renameParameter owner x y).mapTypes (·.renameParameter y x) = p := by
  have htypes : (p.catalog.types.map (·.renamedIn owner x y)).map (·.renameParameter y x) =
      p.catalog.types := by
    rw [List.map_map]
    apply map_of_fixed
    intro t ht
    rw [Function.comp_apply]
    unfold TypeDecl.renamedIn
    split
    · exact TypeDecl.renameParameter_renameParameter h.parameter h.fresh (h.not_uses ht)
    · exact TypeDecl.renameParameter_of_not_uses (h.not_uses ht)
  rw [renameParameter, mapTypes, mapTypes, htypes]

end Project

end EndpointDocs

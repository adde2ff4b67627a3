import Mathlib.Algebra.Order.BigOperators.Group.List
import Mathlib.Algebra.Order.Group.Nat
import EndpointDocs.Proofs.Catalog.Finding
import EndpointDocs.Proofs.Catalog.Owners
import EndpointDocs.Proofs.Documentation.Agreement
import EndpointDocs.Proofs.TypeText.ShortName

namespace EndpointDocs.Catalog

variable {c : Catalog} {t : TypeDecl} {ds ts ls ps : List TypeDecl}

/-- The catalog that is read back from a dump of the project's types. -/
def reloaded (ds : List TypeDecl) : Catalog :=
  ofProject (ofProject ds).projectTypes

def libraryNames : List String :=
  libraryTypes.map (·.name)

private theorem nodup_libraryNames : libraryNames.Nodup := by
  decide

private theorem libraryTypes_plain :
    ∀ t ∈ libraryTypes, t.normalized = t ∧ TypeText.rawName t.name = t.name ∧ t.name ≠ "" := by
  decide

/-- A library's type takes a short name only if that is free. -/
theorem mayTake_of_library {short name : String} (h : name ∈ c.library) :
    c.mayTake short name = (c.shortNames.get? short).isNone := by
  rw [mayTake_eq]
  cases c.shortNames.get? short <;> simp [h]

theorem foldl_insertLibrary {c d : Catalog} (htypes : c.types = d.types)
    (hshort : c.shortNames = d.shortNames)
    (hlibrary : c.library ++ ts.map (·.name) = d.library) :
    ts.foldl insertLibrary c = d.insertAll ts := by
  induction ts generalizing c d with
  | nil =>
    rw [List.map_nil, List.append_nil] at hlibrary
    cases c
    cases d
    simp_all [insertAll]
  | cons t ts ih =>
    rw [List.map_cons, List.append_cons] at hlibrary
    have hname : t.normalized.name ∈ c.library ++ [t.name] := by
      rw [TypeDecl.normalized_name]
      exact List.mem_append_right _ List.mem_cons_self
    have hafter : t.normalized.name ∈ d.library := hlibrary ▸ List.mem_append_left _ hname
    refine ih (c := c.insertLibrary t) (d := d.insert t) ?_ ?_ hlibrary
    · change place t.normalized c.types = place t.normalized d.types
      rw [htypes]
    · rw [insertLibrary, shortNames_insert, shortNames_insert, mayTake_of_library hname,
        mayTake_of_library hafter, hshort]

theorem withLibrary_eq : withLibrary = insertAll { library := libraryNames } libraryTypes :=
  foldl_insertLibrary rfl rfl rfl

theorem types_withLibrary : withLibrary.types = libraryTypes := by
  rw [withLibrary_eq, types_insertAll fun t ht => (libraryTypes_plain t ht).1]
  · rfl
  · exact nodup_libraryNames

theorem ofProject_eq (ds : List TypeDecl) :
    ofProject ds = insertAll { library := libraryNames } (libraryTypes ++ ds) := by
  rw [ofProject, withLibrary_eq, insertAll_append]

private theorem library_ofProject (ds : List TypeDecl) : (ofProject ds).library = libraryNames := by
  rw [ofProject_eq, library_insertAll]

theorem shortNames_ofProject (ds : List TypeDecl) (short : String) :
    (ofProject ds).shortNames.get? short = owner? libraryNames (libraryTypes ++ ds) short := by
  rw [ofProject_eq, get?_shortNames]

/-- A project's types come behind the library types, which may have been replaced. -/
theorem exists_libraryFirst (ds : List TypeDecl) :
    ∃ ls ps, (ofProject ds).LibraryFirst ls ps := by
  have hstart : withLibrary.LibraryFirst libraryTypes [] := {
    types := by rw [types_withLibrary, List.append_nil]
    names := by
      rw [withLibrary_eq, library_insertAll]
      rfl
    nodup := List.nodup_nil
    own := List.forall_mem_nil _
    normalized := List.forall_mem_nil _ }
  exact hstart.insertAll ds

private theorem eq_of_names (hnodup : (ts.map (·.name)).Nodup)
    (hnames : ls.map (·.name) = ts.map (·.name)) (hmem : ∀ t ∈ ts, t ∈ ls) : ls = ts := by
  induction ts generalizing ls with
  | nil => exact List.map_eq_nil_iff.mp hnames
  | cons t ts ih =>
    cases ls with
    | nil => cases hnames
    | cons u ls =>
      rw [List.map_cons, List.map_cons, List.cons.injEq] at hnames
      rw [List.map_cons, List.nodup_cons] at hnodup
      have hbehind {s : TypeDecl} (hs : s ∈ ls) : s.name ∈ ts.map (·.name) :=
        hnames.2 ▸ List.mem_map_of_mem hs
      have ht : t = u := by
        refine (List.mem_cons.mp (hmem t List.mem_cons_self)).resolve_right fun ht => ?_
        exact hnodup.1 (hbehind ht)
      subst ht
      rw [ih hnodup.2 hnames.2]
      intro s hs
      refine (List.mem_cons.mp (hmem s (List.mem_cons_of_mem _ hs))).resolve_left ?_
      rintro rfl
      exact hnodup.1 (List.mem_map_of_mem hs)

theorem byName?_of_mem (hnodup : (c.types.map (·.name)).Nodup) (ht : t ∈ c.types) :
    c.byName? t.name = some t := by
  have hsome : (c.byName? t.name).isSome := by
    rw [byName?, List.find?_isSome]
    exact ⟨t, ht, decide_eq_true rfl⟩
  obtain ⟨u, hu⟩ := Option.isSome_iff_exists.mp hsome
  have hsame := List.inj_on_of_nodup_map hnodup (mem_of_byName? hu) ht (name_of_byName? hu)
  rw [hu, hsame]

private theorem map_name_byShortName? (ds : List TypeDecl) (short : String) :
    ((ofProject ds).byShortName? short).map (·.name) =
      owner? libraryNames (libraryTypes ++ ds) short := by
  rw [ofProject_eq, byShortName?_of_history]
  cases howner : owner? libraryNames (libraryTypes ++ ds) short with
  | none => rfl
  | some name =>
    obtain ⟨t, ht, rfl, -⟩ := exists_of_owner? howner
    obtain ⟨u, hu⟩ := Option.isSome_iff_exists.mp (isSome_latest? ht)
    obtain ⟨v, -, hname, rfl⟩ := exists_of_latest? hu
    rw [Option.bind_some, hu, Option.map_some, TypeDecl.normalized_name, hname]

theorem types_ofProject (hnormalized : ∀ t ∈ ds, t.normalized = t)
    (hnames : ((libraryTypes ++ ds).map (·.name)).Nodup) :
    (ofProject ds).types = libraryTypes ++ ds := by
  rw [ofProject, types_insertAll hnormalized, types_withLibrary]
  rwa [types_withLibrary]

theorem projectTypes_ofProject (h : (ofProject ds).types = libraryTypes ++ ds) :
    (ofProject ds).projectTypes = ds := by
  obtain ⟨ls, ps, hfirst⟩ := exists_libraryFirst ds
  have hlength := congrArg List.length (hfirst.names.trans (library_ofProject ds))
  rw [libraryNames, List.length_map, List.length_map] at hlength
  rw [hfirst.projectTypes]
  exact (List.append_inj (hfirst.types.symm.trans h) hlength).2

private theorem types_reloaded (ds : List TypeDecl) :
    (reloaded ds).types = libraryTypes ++ (ofProject ds).projectTypes := by
  obtain ⟨ls, ps, h⟩ := exists_libraryFirst ds
  have hlibrary := library_ofProject ds
  rw [reloaded, h.projectTypes]
  refine types_ofProject h.normalized ?_
  rw [List.map_append, List.nodup_append]
  refine ⟨nodup_libraryNames, h.nodup, ?_⟩
  rintro name hname _ hown rfl
  obtain ⟨t, ht, rfl⟩ := List.mem_map.mp hown
  exact h.own t ht (hlibrary ▸ hname)

/-- A name that no type has, of which nothing but the short name counts. -/
theorem exists_unknown (c d : Catalog) (text : String) :
    ∃ name, c.find? name = c.byShortName? (TypeText.shortName text) ∧
      d.find? name = d.byShortName? (TypeText.shortName text) := by
  -- Longer than any full name, so only its short name can be found.
  let lengths := (c.types ++ d.types).map (·.name.length)
  obtain ⟨name, hraw, hlong, hshort⟩ := TypeText.exists_longer text lengths.sum
  have hne : name ≠ "" := by
    rintro rfl
    cases hlong
  have hunknown {e : Catalog} (he : e.types ⊆ c.types ++ d.types) : e.byName? name = none := by
    refine List.find?_eq_none.mpr fun t ht hname => ?_
    have hle : t.name.length ≤ lengths.sum :=
      List.le_sum_of_mem (List.mem_map_of_mem (he ht))
    rw [of_decide_eq_true hname] at hle
    omega
  have hfind {e : Catalog} (he : e.types ⊆ c.types ++ d.types) :
      e.find? name = e.byShortName? (TypeText.shortName text) := by
    rw [find?, hraw, if_neg hne, hunknown he, Option.none_or, hshort]
  exact ⟨name, hfind (List.subset_append_left _ _), hfind (List.subset_append_right _ _)⟩

theorem types_reloaded_eq (hlibrary : ∀ t ∈ libraryTypes, t ∈ (ofProject ds).types) :
    (reloaded ds).types = (ofProject ds).types := by
  obtain ⟨ls, ps, h⟩ := exists_libraryFirst ds
  have hnames := library_ofProject ds
  have hfirst : ls = libraryTypes := by
    refine eq_of_names nodup_libraryNames (h.names.trans hnames) fun t ht => ?_
    refine (List.mem_append.mp (h.types ▸ hlibrary t ht)).resolve_right fun hown => ?_
    exact h.own t hown (hnames ▸ List.mem_map_of_mem ht)
  rw [types_reloaded, h.projectTypes, h.types, hfirst]

private theorem library_kept
    (hfind : ∀ text, (reloaded ds).find? text = (ofProject ds).find? text) :
    ∀ t ∈ libraryTypes, t ∈ (ofProject ds).types := by
  intro t ht
  obtain ⟨-, hraw, hne⟩ := libraryTypes_plain t ht
  have hname : (reloaded ds).byName? t.name = some t := by
    rw [byName?, types_reloaded, List.find?_append]
    have hfound := byName?_of_mem (c := { types := libraryTypes }) nodup_libraryNames ht
    rw [byName?] at hfound
    rw [hfound, Option.some_or]
  have hthere : (reloaded ds).find? t.name = some t := by
    rw [find?, hraw, if_neg hne, hname, Option.some_or]
  exact mem_of_find? (hfind t.name ▸ hthere)

private theorem owners_kept (hfind : ∀ text, (reloaded ds).find? text = (ofProject ds).find? text)
    (text : String) :
    owner? libraryNames (libraryTypes ++ (ofProject ds).projectTypes) (TypeText.shortName text) =
      owner? libraryNames (libraryTypes ++ ds) (TypeText.shortName text) := by
  obtain ⟨name, hreloaded, hwhole⟩ := exists_unknown (reloaded ds) (ofProject ds) text
  have hshort := hfind name
  rw [hreloaded, hwhole] at hshort
  rw [← map_name_byShortName?, ← map_name_byShortName?, ← hshort]
  rfl

private theorem reloaded_agrees (hlibrary : ∀ t ∈ libraryTypes, t ∈ (ofProject ds).types)
    (howners : ∀ text, owner? libraryNames (libraryTypes ++ (ofProject ds).projectTypes)
        (TypeText.shortName text) =
      owner? libraryNames (libraryTypes ++ ds) (TypeText.shortName text)) :
    (reloaded ds).Agrees (ofProject ds) := by
  have htypes := types_reloaded_eq hlibrary
  have hnames : (reloaded ds).byName? = (ofProject ds).byName? := by
    funext name
    rw [byName?, byName?, htypes]
  refine ⟨htypes, funext fun text => ?_⟩
  rw [find?, find?, hnames, byShortName?, byShortName?, hnames, reloaded, shortNames_ofProject,
    shortNames_ofProject, howners]

/-- Every name means the same in both catalogs exactly if the library types are still there, since
no type of the project has taken the place of one, and if each short name stands for the same type.
Then both have the same documentation. -/
theorem find?_reloaded_iff (ds : List TypeDecl) :
    ((∀ text, (reloaded ds).find? text = (ofProject ds).find? text) ↔
      (∀ t ∈ libraryTypes, t ∈ (ofProject ds).types) ∧
        ∀ text, owner? libraryNames (libraryTypes ++ (ofProject ds).projectTypes)
            (TypeText.shortName text) =
          owner? libraryNames (libraryTypes ++ ds) (TypeText.shortName text)) ∧
    ((∀ text, (reloaded ds).find? text = (ofProject ds).find? text) → ∀ settings,
      Documentation.ofProject (Project.of (reloaded ds) settings) =
        Documentation.ofProject (Project.of (ofProject ds) settings)) := by
  refine ⟨⟨fun hfind => ⟨library_kept hfind, owners_kept hfind⟩, fun h text => ?_⟩, ?_⟩
  · exact congrFun (reloaded_agrees h.1 h.2).find? text
  · intro hfind settings
    have hagrees := reloaded_agrees (library_kept hfind) (owners_kept hfind)
    exact Documentation.ofProject_over (p := Project.of (ofProject ds) settings) hagrees

/-- A list of the project's own takes the short name of the library's and is found again. -/
theorem find?_reloaded_list :
    let list := TypeDecl.named "shop::List" .record
    let user := { TypeDecl.named "shop::User" .record with
      fields := [{ name := "tags", typeText := "List" }] }
    (∀ text, (reloaded [list, user]).find? text = (ofProject [list, user]).find? text) ∧
      (ofProject [list, user]).find? "List" = some list ∧
      ∀ settings, Documentation.ofProject (Project.of (reloaded [list, user]) settings) =
        Documentation.ofProject (Project.of (ofProject [list, user]) settings) := by
  intro list user
  have htypes : (ofProject [list, user]).types = libraryTypes ++ [list, user] :=
    types_ofProject (by decide) (by decide)
  have hown := projectTypes_ofProject htypes
  have hlibrary : ∀ t ∈ libraryTypes, t ∈ (ofProject [list, user]).types := fun t ht =>
    htypes ▸ List.mem_append_left _ ht
  obtain ⟨hiff, hdocumented⟩ := find?_reloaded_iff [list, user]
  have hfind := hiff.mpr ⟨hlibrary, fun text => by rw [hown]⟩
  exact ⟨hfind, by decide, hdocumented hfind⟩

/-- A project's type that has the name of a library's is left out of the dump. -/
theorem find?_reloaded_vec :
    let vec := { TypeDecl.named "Vec" .record with
      fields := [{ name := "first", typeText := "u8" }] }
    (ofProject [vec]).find? "Vec" = some vec ∧ (ofProject [vec]).projectTypes = [] ∧
      (reloaded [vec]).find? "Vec" ≠ some vec := by
  decide

end EndpointDocs.Catalog

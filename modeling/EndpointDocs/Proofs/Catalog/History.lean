import EndpointDocs.Proofs.Catalog.Dump

namespace EndpointDocs.Catalog

variable {c : Catalog} {t : TypeDecl} {ts : List TypeDecl}

theorem eraseDups_append_singleton {α : Type} [DecidableEq α] (l : List α) (a : α) :
    (l ++ [a]).eraseDups = if a ∈ l then l.eraseDups else l.eraseDups ++ [a] := by
  rw [List.eraseDups_append]
  by_cases h : a ∈ l <;> simp [List.removeAll, h, List.eraseDups_cons]

theorem nodup_eraseDups {α : Type} [DecidableEq α] (l : List α) : l.eraseDups.Nodup := by
  induction l using List.reverseRecOn with
  | nil => exact List.nodup_nil
  | append_singleton l a ih =>
    rw [eraseDups_append_singleton]
    split
    · exact ih
    · next ha =>
      refine List.nodup_append.mpr ⟨ih, List.nodup_singleton a, ?_⟩
      rintro x hx _ hlast rfl
      rw [List.mem_singleton.mp hlast, List.mem_eraseDups] at hx
      exact ha hx

theorem map_name_place (t : TypeDecl) (us : List TypeDecl) :
    (place t us).map (·.name) =
      if t.name ∈ us.map (·.name) then us.map (·.name) else us.map (·.name) ++ [t.name] := by
  split
  · next h => exact map_name_place_of_mem h
  · next h => rw [place_of_not_mem h, List.map_append, List.map_singleton]

/-- Each full name is listed once, in the place of the first type that came in with it. -/
theorem map_name_insertAll (library : List String) (ts : List TypeDecl) :
    (({ library } : Catalog).insertAll ts).types.map (·.name) = (ts.map (·.name)).eraseDups := by
  induction ts using List.reverseRecOn with
  | nil => rfl
  | append_singleton ts t ih =>
    have hlast : (({ library } : Catalog).insertAll (ts ++ [t])).types =
        place t.normalized (({ library } : Catalog).insertAll ts).types := by
      rw [insertAll_append]
      rfl
    rw [hlast, map_name_place, ih, TypeDecl.normalized_name, List.map_append, List.map_singleton,
      eraseDups_append_singleton]
    simp only [List.mem_eraseDups]

theorem types_eq_filterMap (hnodup : (c.types.map (·.name)).Nodup) :
    c.types = (c.types.map (·.name)).filterMap c.byName? := by
  have hfound : ∀ t ∈ c.types, (c.byName? ∘ (·.name)) t = some t := fun t ht =>
    byName?_of_mem hnodup ht
  rw [List.filterMap_map, List.filterMap_congr hfound]
  exact List.filterMap_some.symm

theorem nodup_names_of_history (library : List String) (ts : List TypeDecl) :
    ((({ library } : Catalog).insertAll ts).types.map (·.name)).Nodup :=
  map_name_insertAll library ts ▸ nodup_eraseDups _

theorem types_of_history (library : List String) (ts : List TypeDecl) :
    (({ library } : Catalog).insertAll ts).types =
      (ts.map (·.name)).eraseDups.filterMap (latest? ts) := by
  rw [types_eq_filterMap (nodup_names_of_history library ts), map_name_insertAll,
    byName?_of_history]

/-- Whatever types have come in on top of the library's, with full names and short names of their
own or not: a full name finds the last type that came in with it, the types are listed in the order
in which their names first came in, and a short name finds the type, as it is now, that was the
first of the project with it, or else the first one at all. -/
theorem lookups_withLibrary (ds : List TypeDecl) :
    let c := withLibrary.insertAll ds
    let history := libraryTypes ++ ds
    (∀ name, c.byName? name = latest? history name) ∧
      c.types.map (·.name) = (history.map (·.name)).eraseDups ∧
      c.types = (history.map (·.name)).eraseDups.filterMap (latest? history) ∧
      ∀ short, c.byShortName? short = (owner? libraryNames history short).bind (latest? history) := by
  intro c history
  have hcatalog : c = ({ library := libraryNames } : Catalog).insertAll history := ofProject_eq ds
  rw [hcatalog]
  exact ⟨congrFun (byName?_of_history _ _), map_name_insertAll _ _, types_of_history _ _,
    byShortName?_of_history _ _⟩

end EndpointDocs.Catalog

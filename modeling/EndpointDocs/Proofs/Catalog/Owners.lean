import Mathlib.Data.List.Find
import Mathlib.Data.List.Induction
import Mathlib.Data.List.Nodup
import EndpointDocs.Catalog.Library

namespace EndpointDocs.Catalog

variable {c : Catalog} {t : TypeDecl} {ts us vs ls ps : List TypeDecl}

/-- The full name that a short name stands for when the types have come in one by one: that of the
first type of the project with this short name, or else of the first type at all. -/
def owner? (library : List String) (ts : List TypeDecl) (short : String) : Option String :=
  let found := (ts.map TypeDecl.normalized).filter (·.shortName = short)
  ((found.find? fun t => t.name ∉ library).or found.head?).map (·.name)

/-- A further type takes a short name that is free, or one that a library's type has. -/
theorem owner?_append (library : List String) (ts : List TypeDecl) (t : TypeDecl) (short : String) :
    owner? library (ts ++ [t]) short =
      if t.normalized.shortName = short ∧
          (owner? library ts short).all (fun o => o ∈ library ∧ t.normalized.name ∉ library) then
        some t.normalized.name
      else owner? library ts short := by
  unfold owner?
  simp only [List.map_append, List.map_singleton, List.filter_append]
  generalize hfound : (ts.map TypeDecl.normalized).filter (·.shortName = short) = found
  by_cases hshort : t.normalized.shortName = short
  · rw [List.filter_singleton, decide_eq_true hshort, cond_true, List.find?_append,
      List.head?_append]
    cases hown : found.find? fun t => t.name ∉ library with
    | some u =>
      -- A type of the project has the short name and keeps it.
      have hu : u.name ∉ library := by simpa using List.find?_some hown
      simp [hu]
    | none =>
      cases hfirst : found.head? with
      | none => by_cases ht : t.normalized.name ∈ library <;> simp [hshort, ht]
      | some u =>
        have hu : u.name ∈ library := by
          simpa using List.find?_eq_none.mp hown u (List.mem_of_head? hfirst)
        by_cases ht : t.normalized.name ∈ library <;> simp [hshort, ht, hu]
  · rw [List.filter_singleton, decide_eq_false hshort, cond_false, List.append_nil,
      if_neg fun h => hshort h.1]

/-- The owner of a short name came in with it. -/
theorem exists_of_owner? {library : List String} {short name : String}
    (h : owner? library ts short = some name) :
    ∃ t ∈ ts, t.name = name ∧ t.normalized.shortName = short := by
  obtain ⟨u, hu, rfl⟩ := Option.map_eq_some_iff.mp h
  have hfound : u ∈ (ts.map TypeDecl.normalized).filter (·.shortName = short) := by
    rcases Option.or_eq_some_iff.mp hu with hu | ⟨_, hu⟩
    · exact List.mem_of_find?_eq_some hu
    · exact List.mem_of_head? hu
  obtain ⟨hmem, hshort⟩ := List.mem_filter.mp hfound
  obtain ⟨t, ht, rfl⟩ := List.mem_map.mp hmem
  exact ⟨t, ht, t.normalized_name.symm, of_decide_eq_true hshort⟩

/-- Whatever short name a type came in with has an owner. -/
theorem isSome_owner? (library : List String) (ht : t ∈ ts) :
    (owner? library ts t.normalized.shortName).isSome := by
  have hfound : t.normalized ∈
      (ts.map TypeDecl.normalized).filter (·.shortName = t.normalized.shortName) :=
    List.mem_filter.mpr ⟨List.mem_map_of_mem ht, decide_eq_true rfl⟩
  rw [owner?, Option.isSome_map, Option.isSome_or, Bool.or_eq_true, List.isSome_head?]
  exact .inr (List.ne_nil_of_mem hfound)

theorem library_insertAll (c : Catalog) (ts : List TypeDecl) :
    (c.insertAll ts).library = c.library := by
  induction ts generalizing c with
  | nil => rfl
  | cons t ts ih => exact ih (c.insert t)

theorem insertAll_append (c : Catalog) (ts us : List TypeDecl) :
    c.insertAll (ts ++ us) = (c.insertAll ts).insertAll us :=
  List.foldl_append

theorem mayTake_eq (c : Catalog) (short name : String) :
    c.mayTake short name =
      (c.shortNames.get? short).all fun o => o ∈ c.library ∧ name ∉ c.library := by
  unfold mayTake
  cases c.shortNames.get? short <;> simp [isLibrary]

theorem shortNames_insert (c : Catalog) (t : TypeDecl) :
    (c.insert t).shortNames =
      if c.mayTake t.normalized.shortName t.normalized.name then
        c.shortNames.put t.normalized.shortName t.normalized.name
      else c.shortNames :=
  rfl

theorem get?_insert (c : Catalog) (t : TypeDecl) (short : String) :
    (c.insert t).shortNames.get? short =
      if t.normalized.shortName = short ∧
          (c.shortNames.get? short).all
            (fun o => o ∈ c.library ∧ t.normalized.name ∉ c.library) then
        some t.normalized.name
      else c.shortNames.get? short := by
  rw [shortNames_insert, mayTake_eq]
  by_cases hshort : t.normalized.shortName = short
  · subst hshort
    by_cases htake : (c.shortNames.get? t.normalized.shortName).all
        fun o => o ∈ c.library ∧ t.normalized.name ∉ c.library
    · rw [if_pos htake, if_pos ⟨rfl, htake⟩, OrderedMap.get?_put_self]
    · rw [if_neg htake, if_neg fun h => htake h.2]
  · rw [if_neg (c := _ ∧ _) fun h => hshort h.1]
    split
    · exact OrderedMap.get?_put_of_ne _ _ (Ne.symm hshort)
    · rfl

/-- Behind each short name stands its owner, as that is after all types have come in. -/
theorem get?_shortNames (library : List String) (ts : List TypeDecl) (short : String) :
    (({ library } : Catalog).insertAll ts).shortNames.get? short = owner? library ts short := by
  induction ts using List.reverseRecOn with
  | nil => rfl
  | append_singleton ts t ih =>
    have hlibrary := library_insertAll { library } ts
    rw [insertAll_append, owner?_append, ← ih]
    refine (get?_insert _ t short).trans ?_
    rw [hlibrary]

theorem find?_place (t : TypeDecl) (us : List TypeDecl) (name : String) :
    (place t us).find? (·.name = name) =
      if t.name = name then some t else us.find? (·.name = name) := by
  induction us with
  | nil => by_cases h : t.name = name <;> simp [place, h]
  | cons u us ih =>
    rw [place]
    split
    · next hu => by_cases h : t.name = name <;> simp [h, hu]
    · next hu =>
      rw [List.find?_cons, ih, List.find?_cons]
      by_cases h : t.name = name
      · subst h
        simp [hu]
      · simp [h]

theorem byName?_insert (c : Catalog) (t : TypeDecl) (name : String) :
    (c.insert t).byName? name = if t.name = name then some t.normalized else c.byName? name := by
  have hplace := find?_place t.normalized c.types name
  rwa [TypeDecl.normalized_name] at hplace

/-- The type of this name that came in last, with its short name filled in. -/
def latest? (ts : List TypeDecl) (name : String) : Option TypeDecl :=
  (ts.filter (·.name = name)).getLast?.map TypeDecl.normalized

theorem latest?_append (ts : List TypeDecl) (t : TypeDecl) (name : String) :
    latest? (ts ++ [t]) name = if t.name = name then some t.normalized else latest? ts name := by
  rw [latest?, List.filter_append, List.filter_singleton]
  by_cases h : t.name = name
  · rw [decide_eq_true h, cond_true, List.getLast?_concat, if_pos h, Option.map_some]
  · rw [decide_eq_false h, cond_false, List.append_nil, if_neg h, latest?]

/-- A full name stands for the last type that came in with it. -/
theorem byName?_insertAll (c : Catalog) (ts : List TypeDecl) (name : String) :
    (c.insertAll ts).byName? name = (latest? ts name).or (c.byName? name) := by
  induction ts using List.reverseRecOn with
  | nil => rfl
  | append_singleton ts t ih =>
    have hlast : c.insertAll (ts ++ [t]) = (c.insertAll ts).insert t := insertAll_append c ts [t]
    rw [hlast, byName?_insert, ih, latest?_append]
    split <;> rfl

theorem isSome_latest? (ht : t ∈ ts) : (latest? ts t.name).isSome := by
  rw [latest?, Option.isSome_map, List.getLast?_isSome]
  exact List.ne_nil_of_mem (List.mem_filter.mpr ⟨ht, decide_eq_true rfl⟩)

theorem exists_of_latest? {name : String} (h : latest? ts name = some t) :
    ∃ u ∈ ts, u.name = name ∧ u.normalized = t := by
  obtain ⟨u, hu, rfl⟩ := Option.map_eq_some_iff.mp h
  obtain ⟨hmem, hname⟩ := List.mem_filter.mp (List.mem_of_getLast? hu)
  exact ⟨u, hmem, of_decide_eq_true hname, rfl⟩

theorem byName?_of_history (library : List String) (ts : List TypeDecl) :
    (({ library } : Catalog).insertAll ts).byName? = latest? ts := by
  funext name
  rw [byName?_insertAll]
  exact Option.or_none

theorem byShortName?_of_history (library : List String) (ts : List TypeDecl) (short : String) :
    (({ library } : Catalog).insertAll ts).byShortName? short =
      (owner? library ts short).bind (latest? ts) := by
  rw [byShortName?, get?_shortNames, byName?_of_history]

theorem place_of_not_mem (h : t.name ∉ us.map (·.name)) : place t us = us ++ [t] := by
  induction us with
  | nil => rfl
  | cons u us ih =>
    rw [List.map_cons, List.mem_cons, not_or] at h
    rw [place, if_neg (Ne.symm h.1), ih h.2, List.cons_append]

theorem map_name_place_of_mem (h : t.name ∈ us.map (·.name)) :
    (place t us).map (·.name) = us.map (·.name) := by
  induction us with
  | nil => cases h
  | cons u us ih =>
    rw [place]
    split
    · next hu => rw [List.map_cons, List.map_cons, hu]
    · next hu =>
      rw [List.map_cons, List.map_cons, ih]
      exact (List.mem_cons.mp h).resolve_left (Ne.symm hu)

theorem place_append_of_mem (h : t.name ∈ us.map (·.name)) (vs : List TypeDecl) :
    place t (us ++ vs) = place t us ++ vs := by
  induction us with
  | nil => cases h
  | cons u us ih =>
    rw [List.cons_append, place, place]
    split
    · rfl
    · next hu =>
      rw [ih ((List.mem_cons.mp h).resolve_left (Ne.symm hu)), List.cons_append]

theorem place_append_of_not_mem (h : t.name ∉ us.map (·.name)) (vs : List TypeDecl) :
    place t (us ++ vs) = us ++ place t vs := by
  induction us with
  | nil => rfl
  | cons u us ih =>
    rw [List.map_cons, List.mem_cons, not_or] at h
    rw [List.cons_append, place, if_neg (Ne.symm h.1), ih h.2, List.cons_append]

theorem mem_place {u : TypeDecl} (h : u ∈ place t us) : u = t ∨ u ∈ us := by
  induction us with
  | nil => exact .inl (List.mem_singleton.mp h)
  | cons v us ih =>
    rw [place] at h
    split at h
    · exact (List.mem_cons.mp h).imp_right (List.mem_cons_of_mem _)
    · rcases List.mem_cons.mp h with rfl | h
      · exact .inr List.mem_cons_self
      · exact (ih h).imp_right (List.mem_cons_of_mem _)

/-- The types of libraries come first, and the project's types have names of their own. -/
structure LibraryFirst (c : Catalog) (ls ps : List TypeDecl) : Prop where
  types : c.types = ls ++ ps
  names : ls.map (·.name) = c.library
  nodup : (ps.map (·.name)).Nodup
  own : ∀ t ∈ ps, t.name ∉ c.library
  normalized : ∀ t ∈ ps, t.normalized = t

theorem LibraryFirst.projectTypes (h : c.LibraryFirst ls ps) : c.projectTypes = ps := by
  have hlibrary : ∀ t ∈ ls, t.name ∈ c.library := fun t ht =>
    h.names ▸ List.mem_map_of_mem ht
  unfold Catalog.projectTypes
  rw [h.types, List.filter_append, List.filter_eq_nil_iff.mpr, List.nil_append,
    List.filter_eq_self.mpr]
  · exact fun t ht => by simpa [isLibrary] using h.own t ht
  · exact fun t ht => by simpa [isLibrary] using hlibrary t ht

theorem normalized_normalized (t : TypeDecl) : t.normalized.normalized = t.normalized := by
  by_cases h : t.shortName = ""
  · rw [TypeDecl.normalized, TypeDecl.normalized, if_pos h]
    split <;> rfl
  · have hsame : t.normalized = t := if_neg h
    rw [hsame, hsame]

theorem LibraryFirst.insert (h : c.LibraryFirst ls ps) (t : TypeDecl) :
    ∃ ls' ps', (c.insert t).LibraryFirst ls' ps' := by
  have htypes : (c.insert t).types = place t.normalized c.types := rfl
  have hlibrary : (c.insert t).library = c.library := rfl
  -- A type that has a library's name takes that place, and all others are the project's.
  by_cases ht : t.normalized.name ∈ ls.map (·.name)
  · refine ⟨place t.normalized ls, ps, ?_, ?_, h.nodup, h.own, h.normalized⟩
    · rw [htypes, h.types, place_append_of_mem ht]
    · rw [map_name_place_of_mem ht, h.names, hlibrary]
  · refine ⟨ls, place t.normalized ps, ?_, h.names, ?_, ?_, ?_⟩
    · rw [htypes, h.types, place_append_of_not_mem ht]
    · by_cases hp : t.normalized.name ∈ ps.map (·.name)
      · rw [map_name_place_of_mem hp]
        exact h.nodup
      · rw [place_of_not_mem hp, List.map_append]
        refine List.nodup_append.mpr ⟨h.nodup, List.nodup_singleton _, ?_⟩
        rintro name hname _ hlast rfl
        rw [List.map_singleton, List.mem_singleton] at hlast
        exact hp (hlast ▸ hname)
    · intro u hu
      rcases mem_place hu with rfl | hu
      · rw [hlibrary, ← h.names]
        exact ht
      · exact h.own u hu
    · intro u hu
      rcases mem_place hu with rfl | hu
      · exact normalized_normalized t
      · exact h.normalized u hu

theorem LibraryFirst.insertAll (h : c.LibraryFirst ls ps) (ts : List TypeDecl) :
    ∃ ls' ps', (c.insertAll ts).LibraryFirst ls' ps' := by
  induction ts generalizing c ls ps with
  | nil => exact ⟨ls, ps, h⟩
  | cons t ts ih =>
    obtain ⟨ls', ps', h'⟩ := h.insert t
    exact ih h'

/-- Types with names of their own come behind those that are there. -/
theorem types_insertAll (hnormalized : ∀ t ∈ ts, t.normalized = t)
    (hnames : ((c.types ++ ts).map (·.name)).Nodup) :
    (c.insertAll ts).types = c.types ++ ts := by
  induction ts generalizing c with
  | nil => exact (List.append_nil _).symm
  | cons t ts ih =>
    obtain ⟨ht, hts⟩ := List.forall_mem_cons.mp hnormalized
    have hnew : t.name ∉ c.types.map (·.name) := by
      rw [List.map_append, List.map_cons] at hnames
      intro hmem
      exact (List.nodup_append.mp hnames).2.2 _ hmem _ List.mem_cons_self rfl
    have hinsert : (c.insert t).types = c.types ++ [t] := by
      change place t.normalized c.types = c.types ++ [t]
      rw [ht, place_of_not_mem hnew]
    have hrest := ih (c := c.insert t) hts (by simpa [hinsert] using hnames)
    rw [hinsert, List.append_assoc] at hrest
    exact hrest

end EndpointDocs.Catalog

import EndpointDocs.Proofs.Catalog.History

namespace EndpointDocs.Catalog

variable {c d : Catalog} {t : TypeDecl} {name : String} {ds es ts : List TypeDecl}

/-- Where no two elements have one key, a key finds the element that has it. -/
theorem find?_key_eq_some_iff {α κ : Type} [DecidableEq κ] {key : α → κ} {l : List α}
    (hnodup : (l.map key).Nodup) {k : κ} {a : α} :
    l.find? (fun a => key a = k) = some a ↔ a ∈ l ∧ key a = k := by
  constructor
  · intro h
    exact ⟨List.mem_of_find?_eq_some h, by simpa using List.find?_some h⟩
  · rintro ⟨ha, rfl⟩
    have hsome : (l.find? fun b => key b = key a).isSome := by
      rw [List.find?_isSome]
      exact ⟨a, ha, decide_eq_true rfl⟩
    obtain ⟨b, hb⟩ := Option.isSome_iff_exists.mp hsome
    have hkey : key b = key a := by simpa using List.find?_some hb
    rw [hb, List.inj_on_of_nodup_map hnodup (List.mem_of_find?_eq_some hb) ha hkey]

theorem byName?_eq_some_iff (hnodup : (c.types.map (·.name)).Nodup) :
    c.byName? name = some t ↔ t ∈ c.types ∧ t.name = name :=
  find?_key_eq_some_iff hnodup

theorem byName?_eq_of_perm (h : c.types.Perm d.types) (hnodup : (c.types.map (·.name)).Nodup) :
    c.byName? = d.byName? := by
  have hnodup' : (d.types.map (·.name)).Nodup := (h.map _).nodup_iff.mp hnodup
  funext name
  apply Option.ext
  intro t
  rw [byName?_eq_some_iff hnodup, byName?_eq_some_iff hnodup', h.mem_iff]

private theorem latest?_of_nodup (hnodup : (ts.map (·.name)).Nodup) (name : String) :
    latest? ts name = (({ types := ts } : Catalog).byName? name).map TypeDecl.normalized := by
  have hfirst : ({ types := ts } : Catalog).byName? name =
      (ts.filter (·.name = name)).head? := List.head?_filter.symm
  rw [latest?, hfirst]
  cases hfound : ts.filter (·.name = name) with
  | nil => rfl
  | cons t us =>
    cases us with
    | nil => rfl
    | cons u us =>
      -- Two of the types cannot share the name.
      have hapart : ((ts.filter (·.name = name)).map (·.name)).Nodup :=
        hnodup.sublist (List.filter_sublist.map _)
      have hname : ∀ t ∈ ts.filter (·.name = name), t.name = name := fun t ht =>
        of_decide_eq_true (List.mem_filter.mp ht).2
      rw [hfound] at hapart hname
      have ht := hname t List.mem_cons_self
      have hu := hname u (List.mem_cons_of_mem _ List.mem_cons_self)
      simp [ht, hu] at hapart

/-- Types with names of their own hide what had their names before, and nothing else. -/
theorem byName?_insertAll_of_nodup (c : Catalog) (hnodup : (ts.map (·.name)).Nodup) :
    (c.insertAll ts).byName? name =
      ((({ types := ts } : Catalog).byName? name).map TypeDecl.normalized).or
        (c.byName? name) := by
  rw [byName?_insertAll, latest?_of_nodup hnodup]

theorem nodup_types_ofProject (ds : List TypeDecl) :
    ((ofProject ds).types.map (·.name)).Nodup := by
  rw [ofProject_eq]
  exact nodup_names_of_history _ _

/-- At most one of the types has a given short name. -/
theorem filter_shortName_perm (h : ds.Perm es)
    (hnodup : (ds.map (·.normalized.shortName)).Nodup) (short : String) :
    (ds.map TypeDecl.normalized).filter (·.shortName = short) =
      (es.map TypeDecl.normalized).filter (·.shortName = short) := by
  let apart (t u : TypeDecl) : Prop := t.shortName ≠ u.shortName
  have hapart : (ds.map TypeDecl.normalized).Pairwise apart := by
    rw [List.pairwise_map]
    exact (List.pairwise_map (R := Ne)).mp hnodup
  have hapart' : (es.map TypeDecl.normalized).Pairwise apart :=
    (h.map _).pairwise hapart Ne.symm
  have hperm := (h.map TypeDecl.normalized).filter (·.shortName = short)
  refine hperm.eq_of_pairwise ?_ (hapart.filter _) (hapart'.filter _)
  intro t u ht hu hne
  have ht := of_decide_eq_true (List.mem_filter.mp ht).2
  have hu := of_decide_eq_true (List.mem_filter.mp hu).2
  exact absurd (ht.trans hu.symm) hne

private theorem owner?_perm (h : ds.Perm es) (hnodup : (ds.map (·.normalized.shortName)).Nodup)
    (library : List String) (ls : List TypeDecl) :
    owner? library (ls ++ ds) = owner? library (ls ++ es) := by
  funext short
  unfold owner?
  simp only [List.map_append, List.filter_append, filter_shortName_perm h hnodup]

/-- The order in which a project's types come in shows in the order of the catalog alone. -/
theorem ofProject_agreesUpToOrder (h : ds.Perm es) (hnames : (ds.map (·.name)).Nodup)
    (hshort : (ds.map (·.normalized.shortName)).Nodup) :
    (ofProject ds).AgreesUpToOrder (ofProject es) := by
  have hnames' : (es.map (·.name)).Nodup := (h.map _).nodup_iff.mp hnames
  have hbyName : (ofProject ds).byName? = (ofProject es).byName? := by
    have hsame : ({ types := ds } : Catalog).byName? = ({ types := es } : Catalog).byName? :=
      byName?_eq_of_perm h hnames
    funext name
    rw [ofProject, ofProject, byName?_insertAll_of_nodup _ hnames,
      byName?_insertAll_of_nodup _ hnames', hsame]
  have hnodup := nodup_types_ofProject ds
  have hnodup' := nodup_types_ofProject es
  refine ⟨?_, hbyName, ?_⟩
  · apply (List.perm_ext_iff_of_nodup hnodup.of_map hnodup'.of_map).mpr
    intro t
    have hmem {c : Catalog} (hc : (c.types.map (·.name)).Nodup) :
        t ∈ c.types ↔ c.byName? t.name = some t := by
      rw [byName?_eq_some_iff hc, and_iff_left rfl]
    rw [hmem hnodup, hmem hnodup', hbyName]
  · funext text
    rw [find?, find?, byShortName?, byShortName?, shortNames_ofProject, shortNames_ofProject,
      owner?_perm h hshort, hbyName]

end EndpointDocs.Catalog

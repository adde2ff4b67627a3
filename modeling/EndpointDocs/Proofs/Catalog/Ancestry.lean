import EndpointDocs.Proofs.Catalog.Lookup
import EndpointDocs.Proofs.Catalog.Search

namespace EndpointDocs.Project

open TypeText Catalog

variable {q : Project} {x y base s r : String} {t : TypeDecl} {refs left left' queue : List String}

theorem Legible.raw (hs : q.Legible x y s) : q.Legible x y (rawName s) where
  alone := alone_rawName hs.alone
  unread := hs.unread.imp_left fun hy hmem => hy (names_rawName hmem)

private theorem Legible.hits_rename (h : q.StandsFor x y) (hs : q.Legible x y s)
    (hbase : base ∈ q.knownNames) :
    Hits (rawName base) (rawName (rename y x s)) ↔ Hits (rawName base) (rawName s) := by
  by_cases hx : q.Knows x
  · rw [hs.rawName_eq h hx]
  · have hy : y ∉ names (rawName base) :=
      fun hmem => not_mem_names_of_not_knows h.fresh.1 h.unknown hbase (names_rawName hmem)
    have hx' : x ∉ names (rawName base) :=
      fun hmem => not_mem_names_of_not_knows h.parameter.1 hx hbase (names_rawName hmem)
    unfold Hits
    rw [hs.shortName_rename h, rawName_rename h.parameter,
      rename_eq_iff h.fresh.1 h.parameter hy (.inr hx'),
      rename_eq_iff h.fresh.1 h.parameter hy (.inr hx')]

theorem find?_renamed (h : q.StandsFor x y) (hs : q.Legible x y s) :
    (q.mapTypes (·.renameParameter y x)).catalog.find? (rename y x s) =
      (q.catalog.find? s).map (·.renameParameter y x) := by
  have hname (t : TypeDecl) : (t.renameParameter y x).name = t.name := rfl
  rw [find?_mapTypes hname, find?_rename h hs]

private theorem find?_rawName_renamed (h : q.StandsFor x y) (hs : q.Legible x y s) :
    (q.mapTypes (·.renameParameter y x)).catalog.find? (rawName (rename y x s)) =
      (q.catalog.find? (rawName s)).map (·.renameParameter y x) := by
  rw [rawName_rename h.parameter, find?_renamed h hs.raw]

/-- Two names that are renamed to the same one find the same type. -/
theorem find?_eq_of_rename_eq (h : q.StandsFor x y) (hr : q.Legible x y r) (hs : q.Legible x y s)
    (heq : rawName (rename y x r) = rawName (rename y x s)) :
    q.catalog.find? (rawName r) = q.catalog.find? (rawName s) := by
  rw [rawName_rename h.parameter, rawName_rename h.parameter] at heq
  rw [← find?_rename h hr.raw, heq, find?_rename h hs.raw]

private theorem rawName_rename_congr (h : q.StandsFor x y) (heq : rawName r = rawName s) :
    rawName (rename y x r) = rawName (rename y x s) := by
  rw [rawName_rename h.parameter, heq, rawName_rename h.parameter]

/-- What a search along the references `refs` and the same search with `y` renamed to `x` keep in
step: the second one looks at nothing more, and what it looks at no more is spent. -/
structure InStep (q : Project) (x y base : String) (refs left left' queue : List String) :
    Prop where
  queued : ∀ s ∈ queue, s ∈ refs
  kept : ∀ s ∈ refs, rawName (rename y x s) ∈ left → rawName s ∈ left'
  spent : ∀ s ∈ refs, rawName s ∈ left' →
    rawName (rename y x s) ∈ left ∨ Spent q.catalog.find? (rawName base) left' queue (rawName s)

/-- Where the search goes on after a name that was not looked at any more with `y` renamed. -/
theorem InStep.read (h : q.StandsFor x y)
    (hstep : q.InStep x y base refs left left' (s :: queue))
    (hmem : rawName (rename y x s) ∉ left) :
    q.InStep x y base refs left (without (rawName s) left') queue where
  queued r hr := hstep.queued r (List.mem_cons_of_mem _ hr)
  kept r hr hin := by
    refine mem_without.mpr ⟨hstep.kept r hr hin, fun heq => hmem ?_⟩
    rwa [← rawName_rename_congr h heq]
  spent r hr hin := by
    refine (hstep.spent r hr (mem_of_mem_without hin)).imp_right fun hspent => ?_
    exact hspent.read (fun _ => mem_of_mem_without) not_mem_without_self

/-- Where both searches go on after reading a name that nothing is known by. -/
theorem InStep.pass (h : q.StandsFor x y) (hrefs : ∀ r ∈ refs, q.Legible x y r)
    (hstep : q.InStep x y base refs left left' (s :: queue))
    (hmiss : ¬ Hits (rawName base) (rawName (rename y x s))) (hbase : base ∈ q.knownNames)
    (hfind : q.catalog.find? (rawName s) = none) :
    q.InStep x y base refs (without (rawName (rename y x s)) left)
      (without (rawName s) left') queue where
  queued r hr := hstep.queued r (List.mem_cons_of_mem _ hr)
  kept r hr hin := by
    obtain ⟨hin, hne⟩ := mem_without.mp hin
    exact mem_without.mpr ⟨hstep.kept r hr hin, fun heq => hne (rawName_rename_congr h heq)⟩
  spent r hr hin := by
    have hs := hrefs s (hstep.queued s List.mem_cons_self)
    rcases hstep.spent r hr (mem_of_mem_without hin) with hleft | hspent
    · by_cases heq : rawName (rename y x r) = rawName (rename y x s)
      · refine .inr ⟨?_, ?_⟩
        · rwa [← (hrefs r hr).hits_rename h hbase, heq]
        · intro t ht
          rw [find?_eq_of_rename_eq h (hrefs r hr) hs heq, hfind] at ht
          cases ht
      · exact .inl (mem_without.mpr ⟨hleft, heq⟩)
    · exact .inr (hspent.read (fun _ => mem_of_mem_without) not_mem_without_self)

/-- Where both searches go on after a type that is not the one looked for. -/
theorem InStep.enter (h : q.StandsFor x y) (hrefs : ∀ r ∈ refs, q.Legible x y r)
    (hclosed : ∀ t ∈ q.catalog.types, ∀ r ∈ t.supertypes, r ∈ refs)
    (hstep : q.InStep x y base refs left left' (s :: queue))
    (hmiss : ¬ Hits (rawName base) (rawName (rename y x s))) (hbase : base ∈ q.knownNames)
    (hfind : q.catalog.find? (rawName s) = some t) (hnamed : t.isNamed (rawName base) = false) :
    q.InStep x y base refs (without t.name (without (rawName (rename y x s)) left))
      (without t.name (without (rawName s) left')) (queue ++ t.supertypes) := by
  have ht := mem_of_find? hfind
  have hl : q.catalog.types.map (·.name) ∈ q.nameLists := by simp [nameLists]
  have hname : t.name ∈ q.knownNames := mem_knownNames hl (List.mem_map_of_mem ht)
  have hs := hrefs s (hstep.queued s List.mem_cons_self)
  refine ⟨?_, ?_, ?_⟩
  · intro r hr
    rcases List.mem_append.mp hr with hr | hr
    · exact hstep.queued r (List.mem_cons_of_mem _ hr)
    · exact hclosed t ht r hr
  · intro r hr hin
    obtain ⟨hin, hne⟩ := mem_without.mp hin
    obtain ⟨hin, hne'⟩ := mem_without.mp hin
    have hself : rawName r ≠ t.name := mt ((hrefs r hr).eq_known h hname).1.mpr hne
    refine mem_without.mpr ⟨mem_without.mpr ⟨hstep.kept r hr hin, ?_⟩, hself⟩
    exact fun heq => hne' (rawName_rename_congr h heq)
  · intro r hr hin
    obtain ⟨hin, hne⟩ := mem_without.mp hin
    rcases hstep.spent r hr (mem_of_mem_without hin) with hleft | hspent
    · have hself : rawName (rename y x r) ≠ t.name := mt ((hrefs r hr).eq_known h hname).1.mp hne
      by_cases heq : rawName (rename y x r) = rawName (rename y x s)
      · refine .inr ⟨?_, ?_⟩
        · rwa [← (hrefs r hr).hits_rename h hbase, heq]
        · intro t' ht'
          rw [find?_eq_of_rename_eq h (hrefs r hr) hs heq, hfind] at ht'
          cases ht'
          refine ⟨hnamed, not_mem_without_self, fun u hu => .inr ?_⟩
          exact List.mem_map_of_mem (List.mem_append_right _ hu)
      · exact .inl (mem_without.mpr ⟨mem_without.mpr ⟨hleft, heq⟩, hself⟩)
    · refine .inr (Spent.append ?_ _)
      exact hspent.read (fun _ hn => mem_of_mem_without (mem_of_mem_without hn))
        (fun hn => not_mem_without_self (mem_of_mem_without hn))

/-- Searches that are in step find the same. -/
theorem meets_rename (h : q.StandsFor x y) (hrefs : ∀ r ∈ refs, q.Legible x y r)
    (hclosed : ∀ t ∈ q.catalog.types, ∀ r ∈ t.supertypes, r ∈ refs) (hbase : base ∈ q.knownNames)
    (hstep : q.InStep x y base refs left left' queue) :
    meets (q.mapTypes (·.renameParameter y x)).catalog.find? (rawName base) left
        (queue.map (rename y x)) =
      meets q.catalog.find? (rawName base) left' queue := by
  generalize hmap : queue.map (rename y x) = renamed
  -- Along the search with `y` renamed, which reads no more than the other one and may read less.
  induction left, renamed using meets_induction
    (q.mapTypes (·.renameParameter y x)).catalog.find? (rawName base) generalizing left' queue with
  | nil left => rw [List.map_eq_nil_iff.mp hmap, meets, meets]
  | hits left r renamed hmem hhit =>
    obtain ⟨s, queue, rfl, rfl, rfl⟩ := List.map_eq_cons_iff.mp hmap
    have hin := hstep.queued s List.mem_cons_self
    have hhit' := ((hrefs s hin).hits_rename h hbase).mp hhit
    rw [meets_of_hits hmem hhit, meets_of_hits (hstep.kept s hin hmem) hhit']
  | unknown left r renamed hmem hmiss hfind ih =>
    obtain ⟨s, queue, rfl, rfl, rfl⟩ := List.map_eq_cons_iff.mp hmap
    have hin := hstep.queued s List.mem_cons_self
    have hmiss' := mt ((hrefs s hin).hits_rename h hbase).mpr hmiss
    have hfound := find?_rawName_renamed h (hrefs s hin)
    rw [hfind] at hfound
    have hfind' := Option.map_eq_none_iff.mp hfound.symm
    rw [meets_of_none hmem hmiss hfind, meets_of_none (hstep.kept s hin hmem) hmiss' hfind']
    exact ih (hstep.pass h hrefs hmiss hbase hfind') rfl
  | enter left r renamed t hmem hmiss hfind ih =>
    obtain ⟨s, queue, rfl, rfl, rfl⟩ := List.map_eq_cons_iff.mp hmap
    have hin := hstep.queued s List.mem_cons_self
    have hmiss' := mt ((hrefs s hin).hits_rename h hbase).mpr hmiss
    have hfound := find?_rawName_renamed h (hrefs s hin)
    rw [hfind] at hfound
    obtain ⟨t', hfind', rfl⟩ := Option.map_eq_some_iff.mp hfound.symm
    have hsame : (t'.renameParameter y x).isNamed (rawName base) = t'.isNamed (rawName base) := rfl
    rw [meets_of_some hmem hmiss hfind, meets_of_some (hstep.kept s hin hmem) hmiss' hfind', hsame]
    cases hnamed : t'.isNamed (rawName base) with
    | true => rw [Bool.true_or, Bool.true_or]
    | false =>
      have hnext : (queue ++ t'.supertypes).map (rename y x) =
          queue.map (rename y x) ++ (t'.renameParameter y x).supertypes := List.map_append
      rw [Bool.false_or, Bool.false_or]
      exact ih (hstep.enter h hrefs hclosed hmiss hbase hfind' hnamed) hnext
  | read left r renamed hmem ih =>
    obtain ⟨s, queue, rfl, rfl, rfl⟩ := List.map_eq_cons_iff.mp hmap
    have hin := hstep.queued s List.mem_cons_self
    have hspent : rawName s ∈ left' →
        Spent q.catalog.find? (rawName base) left' (s :: queue) (rawName s) :=
      fun hleft => (hstep.spent s hin hleft).resolve_left hmem
    rw [meets_of_not_mem hmem, meets_of_spent hspent]
    exact ih (hstep.read h hmem) rfl

/-- A type inherits from the same types with the parameter renamed. -/
theorem inherits_rename (h : q.StandsFor x y)
    (hsupertypes : ∀ t ∈ q.catalog.types, ∀ s ∈ t.supertypes, q.Legible x y s)
    (ht : t ∈ q.catalog.types) (hbase : base ∈ q.knownNames) :
    (q.mapTypes (·.renameParameter y x)).catalog.inherits (t.renameParameter y x) base =
      q.catalog.inherits t base := by
  have hl : q.catalog.types.map (·.name) ∈ q.nameLists := by simp [nameLists]
  have hname : t.name ∈ q.knownNames := mem_knownNames hl (List.mem_map_of_mem ht)
  have hclosed : ∀ u ∈ q.catalog.types, ∀ s ∈ u.supertypes,
      s ∈ t.supertypes ++ q.catalog.types.flatMap (·.supertypes) :=
    fun u hu s hs => List.mem_append_right _ (List.mem_flatMap.mpr ⟨u, hu, hs⟩)
  have hrefs : ∀ s ∈ t.supertypes ++ q.catalog.types.flatMap (·.supertypes),
      q.Legible x y s := by
    intro s hs
    rcases List.mem_append.mp hs with hs | hs
    · exact hsupertypes t ht s hs
    · obtain ⟨u, hu, hs⟩ := List.mem_flatMap.mp hs
      exact hsupertypes u hu s hs
  have hnames : (q.mapTypes (·.renameParameter y x)).catalog.supertypeNames
      (t.renameParameter y x) = ((t.supertypes ++ q.catalog.types.flatMap (·.supertypes)).map
        fun s => rawName (rename y x s)) := by
    simp [supertypeNames, mapTypes, TypeDecl.renameParameter, TypeDecl.mapReferences,
      List.flatMap_map, List.map_flatMap, Function.comp_def]
  have hstep : q.InStep x y base (t.supertypes ++ q.catalog.types.flatMap (·.supertypes))
      (without t.name ((q.mapTypes (·.renameParameter y x)).catalog.supertypeNames
        (t.renameParameter y x))) (without t.name (q.catalog.supertypeNames t)) t.supertypes := by
    rw [hnames]
    refine ⟨fun s hs => List.mem_append_left _ hs, ?_, ?_⟩
    · intro s hs hin
      have hne := mt ((hrefs s hs).eq_known h hname).1.mpr (mem_without.mp hin).2
      exact mem_without.mpr ⟨List.mem_map_of_mem hs, hne⟩
    · intro s hs hin
      have hne := mt ((hrefs s hs).eq_known h hname).1.mp (mem_without.mp hin).2
      exact .inl (mem_without.mpr ⟨List.mem_map.mpr ⟨s, hs, rfl⟩, hne⟩)
  have hmeets := meets_rename h hrefs hclosed hbase hstep
  unfold inherits
  exact congrArg (t.isNamed (rawName base) || ·) hmeets

/-- A reference of a type that `u` inherits from, with values for parameters of that type. -/
structure Above (q : Project) (u : TypeDecl) (e : String × Bindings) : Prop where
  written : Written q.catalog u (substitute e.2 e.1)
  source : ∃ t ∈ q.catalog.types, e.1 ∈ t.supertypes ∧ ∀ k ∈ e.2.keys, k ∈ t.parameters

private theorem Above.substitute_rename {u : TypeDecl} {b : Bindings} (h : q.StandsFor x y)
    (he : q.Above u (s, b)) :
    substitute (renameBindings y x b) (rename y x s) = rename y x (substitute b s) := by
  obtain ⟨t, ht, hs, hkeys⟩ := he.source
  refine (rename_substitute h.fresh.1 h.parameter fun k hk => ?_).symm
  exact TypeDecl.keepsApart_of_unmixed (h.unmixed t ht) (TypeDecl.mem_references_of_supertype hs) k
    (hkeys k hk)

theorem Above.next {u : TypeDecl} {b : Bindings} (he : q.Above u (s, b))
    (hfind : q.catalog.find? (substitute b s) = some t) (hr : r ∈ t.supertypes) :
    q.Above u (r, bind t.parameters (arguments (substitute b s))) where
  written := .above he.written hfind hr
  source := ⟨t, mem_of_find? hfind, hr, fun _ => mem_keys_bind⟩

theorem bind_renamed (h : q.StandsFor x y) (ht : t ∈ q.catalog.types) (arguments : List String) :
    bind (t.renameParameter y x).parameters (arguments.map (rename y x)) =
      renameBindings y x (bind t.parameters arguments) := by
  refine bind_rename ?_ arguments
  exact (h.unmixed t ht).symm.imp (fun hy hmem => hy (.inl hmem)) (fun hx hmem => hx (.inl hmem))

private theorem map_entries_rename (references : List String) (b : Bindings) :
    (references.map fun r => (r, b)).map (fun e => (rename y x e.1, renameBindings y x e.2)) =
      (references.map (rename y x)).map fun r => (r, renameBindings y x b) := by
  rw [List.map_map, List.map_map]
  rfl

/-- What lies above a type is what lay above it, renamed. -/
theorem above_rename {u : TypeDecl} {entries : List (String × Bindings)} (h : q.StandsFor x y)
    (hwritten : ∀ w, Written q.catalog u w → q.Legible x y w)
    (hentries : ∀ e ∈ entries, q.Above u e) :
    above (q.mapTypes (·.renameParameter y x)).catalog.find? left
        (entries.map fun e => (rename y x e.1, renameBindings y x e.2)) =
      (above q.catalog.find? left entries).map fun e =>
        (e.1.renameParameter y x, renameBindings y x e.2) := by
  induction left, entries using above_induction q.catalog.find? with
  | nil left => simp [above]
  | unknown left s b entries hfind ih =>
    obtain ⟨he, hrest⟩ := List.forall_mem_cons.mp hentries
    have hfind' : (q.mapTypes (·.renameParameter y x)).catalog.find?
        (substitute (renameBindings y x b) (rename y x s)) = none := by
      rw [he.substitute_rename h, find?_renamed h (hwritten _ he.written), hfind, Option.map_none]
    rw [List.map_cons, above_of_none hfind', above_of_none hfind, ih hrest]
  | enter left s b entries t hfind hmem ih =>
    obtain ⟨he, hrest⟩ := List.forall_mem_cons.mp hentries
    have hwrite := he.substitute_rename h
    have hfind' := find?_renamed h (hwritten _ he.written)
    rw [hfind, Option.map_some, ← hwrite] at hfind'
    have hbind := bind_renamed h (mem_of_find? hfind) (arguments (substitute b s))
    rw [← arguments_rename h, ← hwrite] at hbind
    have hentries' : ∀ e ∈ entries ++ t.supertypes.map fun r =>
        (r, bind t.parameters (arguments (substitute b s))), q.Above u e := by
      intro e hmem
      rcases List.mem_append.mp hmem with hmem | hmem
      · exact hrest e hmem
      · obtain ⟨r, hr, rfl⟩ := List.mem_map.mp hmem
        exact he.next hfind hr
    have hname : (t.renameParameter y x).name = t.name := rfl
    have hsupertypes : (t.renameParameter y x).supertypes = t.supertypes.map (rename y x) := rfl
    have hmap := ih hentries'
    rw [List.map_append, map_entries_rename] at hmap
    rw [List.map_cons, above_of_some hfind', above_of_some hfind, if_pos hmem, hbind, List.map_cons,
      ← hmap, hname, if_pos hmem, hsupertypes]
  | read left s b entries t hfind hmem ih =>
    obtain ⟨he, hrest⟩ := List.forall_mem_cons.mp hentries
    have hfind' := find?_renamed h (hwritten _ he.written)
    rw [hfind, Option.map_some, ← he.substitute_rename h] at hfind'
    rw [List.map_cons, above_of_some hfind', above_of_some hfind, if_neg hmem, ← ih hrest]
    exact if_neg hmem

/-- The ancestors of a type are those it had, renamed. -/
theorem ancestors_rename (h : q.StandsFor x y)
    (hwritten : ∀ w, Written q.catalog t w → q.Legible x y w) (ht : t ∈ q.catalog.types) :
    (q.mapTypes (·.renameParameter y x)).catalog.ancestors (t.renameParameter y x) =
      (q.catalog.ancestors t).map fun e =>
        (e.1.renameParameter y x, renameBindings y x e.2) := by
  have hentries : ∀ e ∈ t.supertypes.map fun s => (s, ([] : Bindings)), q.Above t e := by
    intro e he
    obtain ⟨s, hs, rfl⟩ := List.mem_map.mp he
    exact ⟨(substitute_nil s).symm ▸ .own hs, t, ht, hs, by simp [OrderedMap.keys]⟩
  have hnames : (q.mapTypes (·.renameParameter y x)).catalog.types.map (·.name) =
      q.catalog.types.map (·.name) := List.map_map
  have hsupertypes : (t.renameParameter y x).supertypes = t.supertypes.map (rename y x) := rfl
  have habove := @above_rename q x y (without t.name (q.catalog.types.map (·.name))) t _ h hwritten
    hentries
  have hnone : renameBindings y x [] = [] := rfl
  have hname : (t.renameParameter y x).name = t.name := rfl
  rw [map_entries_rename, hnone] at habove
  rw [ancestors, ancestors, ← habove, hnames, hsupertypes, hname]

end EndpointDocs.Project

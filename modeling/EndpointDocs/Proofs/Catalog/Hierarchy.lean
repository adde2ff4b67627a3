import EndpointDocs.Proofs.Catalog.Distance

namespace EndpointDocs.Catalog

open TypeText

variable {c : Catalog} {t u : TypeDecl} {base r : String} {seen names left : List String}

/-- Of the names, those are left that have not been seen. -/
def Unseen (names left seen : List String) : Prop :=
  ∀ n ∈ names, n ∈ left ↔ n ∉ seen

theorem unseen_self (n : String) (names : List String) : Unseen names (without n names) [n] := by
  intro m hm
  rw [mem_without, and_iff_right hm, List.mem_singleton]

theorem Unseen.cons (h : Unseen names left seen) (n : String) :
    Unseen names (without n left) (n :: seen) := by
  intro m hm
  rw [mem_without, h m hm, List.mem_cons, not_or, and_comm]

theorem Unseen.name_mem_iff {s : String} (h : Unseen (c.types.map (·.name)) left seen)
    (hfind : c.find? s = some u) : u.name ∈ left ↔ u.name ∉ seen :=
  h _ (List.mem_map_of_mem (mem_of_find? hfind))

/-- What a search finds in the rounds to come, after it has come across the names in `seen`. -/
inductive Collects (c : Catalog) :
    List String → List (String × Bindings) → List (TypeDecl × Bindings) → Prop
  | done {seen : List String} : Collects c seen [] []
  | unknown {seen : List String} {r : String} {b : Bindings} {queue : List (String × Bindings)}
      {found : List (TypeDecl × Bindings)} (nothing : c.find? (substitute b r) = none)
      (rest : Collects c seen queue found) : Collects c seen ((r, b) :: queue) found
  | again {seen : List String} {r : String} {b : Bindings} {queue : List (String × Bindings)}
      {found : List (TypeDecl × Bindings)} {u : TypeDecl}
      (answer : c.find? (substitute b r) = some u) (old : u.name ∈ seen)
      (rest : Collects c seen queue found) : Collects c seen ((r, b) :: queue) found
  | enter {seen : List String} {r : String} {b : Bindings} {queue : List (String × Bindings)}
      {found : List (TypeDecl × Bindings)} {u : TypeDecl}
      (answer : c.find? (substitute b r) = some u) (new : u.name ∉ seen)
      (rest : Collects c (u.name :: seen) (queue ++ u.supertypes.map fun s =>
        (s, bind u.parameters (arguments (substitute b r)))) found) :
      Collects c seen ((r, b) :: queue)
        ((u, bind u.parameters (arguments (substitute b r))) :: found)

/-- A search finds what the recursion over the names that are left lists. -/
theorem Collects.eq_above {queue : List (String × Bindings)} {found : List (TypeDecl × Bindings)}
    (h : c.Collects seen queue found) (hleft : Unseen (c.types.map (·.name)) left seen) :
    found = above c.find? left queue := by
  induction h generalizing left with
  | done => rw [above]
  | unknown nothing _ ih => rw [above_of_none nothing, ih hleft]
  | again answer old _ ih =>
    rw [above_of_some answer, if_neg ((hleft.name_mem_iff answer).not.mpr (not_not_intro old)),
      ih hleft]
  | enter answer new _ ih =>
    rw [above_of_some answer, if_pos ((hleft.name_mem_iff answer).mpr new), ih (hleft.cons _)]

theorem collects_above {queue : List (String × Bindings)}
    (h : Unseen (c.types.map (·.name)) left seen) :
    c.Collects seen queue (above c.find? left queue) := by
  induction left, queue using above_induction c.find? generalizing seen with
  | nil left =>
    rw [above]
    exact .done
  | unknown left r b queue hfind ih =>
    rw [above_of_none hfind]
    exact .unknown hfind (ih h)
  | enter left r b queue u hfind hmem ih =>
    rw [above_of_some hfind, if_pos hmem]
    exact .enter hfind ((h.name_mem_iff hfind).mp hmem) (ih (h.cons _))
  | read left r b queue u hfind hmem ih =>
    rw [above_of_some hfind, if_neg hmem]
    exact .again hfind (not_not.mp (mt (h.name_mem_iff hfind).mpr hmem)) (ih h)

/-- A search for ancestors comes to an end, and with this list. -/
theorem collects_iff (found : List (TypeDecl × Bindings)) :
    c.Collects [t.name] (t.supertypes.map fun s => (s, [])) found ↔ found = c.ancestors t := by
  have hleft := unseen_self t.name (c.types.map (·.name))
  constructor
  · exact fun h => h.eq_above hleft
  · rintro rfl
    exact collects_above hleft

/-- What a search for `base` answers after it has come across the names in `seen`, those of types
and those that supertypes are written with. -/
inductive Seeks (c : Catalog) (base : String) : List String → List String → Bool → Prop
  | done {seen : List String} : Seeks c base seen [] false
  | again {seen queue : List String} {r : String} {answer : Bool} (old : rawName r ∈ seen)
      (rest : Seeks c base seen queue answer) : Seeks c base seen (r :: queue) answer
  | hit {seen queue : List String} {r : String} (new : rawName r ∉ seen)
      (hits : Hits base (rawName r)) : Seeks c base seen (r :: queue) true
  | unknown {seen queue : List String} {r : String} {answer : Bool} (new : rawName r ∉ seen)
      (misses : ¬ Hits base (rawName r)) (nothing : c.find? (rawName r) = none)
      (rest : Seeks c base (rawName r :: seen) queue answer) :
      Seeks c base seen (r :: queue) answer
  | named {seen queue : List String} {r : String} {u : TypeDecl} (new : rawName r ∉ seen)
      (misses : ¬ Hits base (rawName r)) (found : c.find? (rawName r) = some u)
      (same : u.isNamed base = true) : Seeks c base seen (r :: queue) true
  | enter {seen queue : List String} {r : String} {u : TypeDecl} {answer : Bool}
      (new : rawName r ∉ seen) (misses : ¬ Hits base (rawName r))
      (found : c.find? (rawName r) = some u) (other : u.isNamed base = false)
      (rest : Seeks c base (u.name :: rawName r :: seen) (queue ++ u.supertypes) answer) :
      Seeks c base seen (r :: queue) answer

/-- The references in a queue, and those that come behind them, have one of the names. -/
structure Reads (c : Catalog) (names queue : List String) : Prop where
  queued : ∀ s ∈ queue, rawName s ∈ names
  closed : ∀ u ∈ c.types, ∀ s ∈ u.supertypes, rawName s ∈ names

theorem Reads.head {queue : List String} (h : c.Reads names (r :: queue)) : rawName r ∈ names :=
  h.queued r List.mem_cons_self

theorem Reads.tail {queue : List String} (h : c.Reads names (r :: queue)) : c.Reads names queue :=
  ⟨fun s hs => h.queued s (List.mem_cons_of_mem _ hs), h.closed⟩

theorem Reads.enter {queue : List String} {s : String} (h : c.Reads names (r :: queue))
    (hfind : c.find? s = some u) : c.Reads names (queue ++ u.supertypes) where
  queued s hs := by
    rcases List.mem_append.mp hs with hs | hs
    · exact h.tail.queued s hs
    · exact h.closed u (mem_of_find? hfind) s hs
  closed := h.closed

/-- A search answers what the recursion over the names that are left does. -/
theorem Seeks.eq_meets {queue : List String} {answer : Bool} (h : c.Seeks base seen queue answer)
    (hleft : Unseen names left seen) (hreads : c.Reads names queue) :
    answer = meets c.find? base left queue := by
  induction h generalizing left with
  | done => rw [meets]
  | again old _ ih =>
    rw [meets_of_not_mem ((hleft _ hreads.head).not.mpr (not_not_intro old)), ih hleft hreads.tail]
  | hit new hits => rw [meets_of_hits ((hleft _ hreads.head).mpr new) hits]
  | unknown new misses nothing _ ih =>
    rw [meets_of_none ((hleft _ hreads.head).mpr new) misses nothing,
      ih (hleft.cons _) hreads.tail]
  | named new misses found same =>
    rw [meets_of_some ((hleft _ hreads.head).mpr new) misses found, same, Bool.true_or]
  | enter new misses found other _ ih =>
    rw [meets_of_some ((hleft _ hreads.head).mpr new) misses found, other, Bool.false_or,
      ih ((hleft.cons _).cons _) (hreads.enter found)]

theorem seeks_meets {queue : List String} (h : Unseen names left seen)
    (hreads : c.Reads names queue) : c.Seeks base seen queue (meets c.find? base left queue) := by
  induction left, queue using meets_induction c.find? base generalizing seen with
  | nil left =>
    rw [meets]
    exact .done
  | hits left r queue hmem hhit =>
    rw [meets_of_hits hmem hhit]
    exact .hit ((h _ hreads.head).mp hmem) hhit
  | unknown left r queue hmem hmiss hfind ih =>
    rw [meets_of_none hmem hmiss hfind]
    exact .unknown ((h _ hreads.head).mp hmem) hmiss hfind (ih (h.cons _) hreads.tail)
  | enter left r queue u hmem hmiss hfind ih =>
    rw [meets_of_some hmem hmiss hfind]
    cases hnamed : u.isNamed base with
    | true => exact .named ((h _ hreads.head).mp hmem) hmiss hfind hnamed
    | false =>
      rw [Bool.false_or]
      exact .enter ((h _ hreads.head).mp hmem) hmiss hfind hnamed
        (ih ((h.cons _).cons _) (hreads.enter hfind))
  | read left r queue hmem ih =>
    rw [meets_of_not_mem hmem]
    exact .again (not_not.mp (mt (h _ hreads.head).mpr hmem)) (ih h hreads.tail)

/-- A type has a base if it is called so, or if the search along its supertypes says so. -/
theorem seeks_iff (base : String) (answer : Bool) :
    (if t.isNamed base then answer = true
      else c.Seeks (rawName base) [t.name] t.supertypes answer) ↔ answer = c.inherits t base := by
  have hnamed : t.isNamed (rawName base) = t.isNamed base := by
    rw [TypeDecl.isNamed, TypeDecl.isNamed, rawName_rawName]
  have hleft := unseen_self t.name (c.supertypeNames t)
  have hreads : c.Reads (c.supertypeNames t) t.supertypes := by
    refine ⟨fun s hs => mem_supertypeNames .refl hs, fun u hu s hs => ?_⟩
    exact List.mem_map_of_mem (List.mem_append_right _ (List.mem_flatMap.mpr ⟨u, hu, hs⟩))
  rw [inherits, hnamed]
  cases t.isNamed base with
  | true => rw [if_pos rfl, Bool.true_or]
  | false =>
    rw [if_neg Bool.false_ne_true, Bool.false_or]
    constructor
    · exact fun h => h.eq_meets hleft hreads
    · rintro rfl
      exact seeks_meets hleft hreads

theorem mem_ancestors_iff (hown : c.byName? t.name = some t) (hplain : c.PlainNames) :
    u ∈ (c.ancestors t).map (·.1) ↔ u ≠ t ∧ c.Above t u := by
  obtain ⟨hsound, -, hcomplete⟩ := (frontier_start hown).explore hown hplain
  rw [List.append_nil] at hsound hcomplete
  constructor
  · intro h
    obtain ⟨e, he, rfl⟩ := List.mem_map.mp h
    obtain ⟨habove, hfar⟩ := hsound e he
    refine ⟨fun heq => ?_, habove⟩
    rw [heq, distance_self] at hfar
    exact Nat.lt_irrefl 0 hfar
  · rintro ⟨hne, habove⟩
    have hname : u.name ≠ t.name := fun hname =>
      hne (eq_of_byName? (habove.own hown) hown hname)
    have hleft : u.name ∈ without t.name (c.types.map (·.name)) :=
      mem_without.mpr ⟨List.mem_map_of_mem (mem_types_of_above habove hne), hname⟩
    obtain ⟨e, he, rfl⟩ := hcomplete u habove hleft
    exact List.mem_map_of_mem he

theorem above_iff_mem (hown : c.byName? t.name = some t) (hplain : c.PlainNames) :
    c.Above t u ↔ u ∈ t :: (c.ancestors t).map (·.1) := by
  rw [List.mem_cons, mem_ancestors_iff hown hplain]
  constructor
  · exact fun h => (em (u = t)).imp_right fun hne => ⟨hne, h⟩
  · rintro (rfl | ⟨_, h⟩)
    · exact .refl
    · exact h

/-- The searches of a hierarchy end. Where types go by the last segments of their names and no
supertype is named by a parameter, the one lists the types above `t`, each once and nearest first;
the other one meets a base that one of them is called by or that one of them is written with. -/
theorem hierarchy_search (hown : c.byName? t.name = some t)
    (hshort : ∀ u ∈ c.types, u.shortName = shortName u.name) (hplain : c.PlainNames) :
    (∀ found, c.Collects [t.name] (t.supertypes.map fun s => (s, [])) found ↔
        found = c.ancestors t) ∧
      (∀ u, u ∈ (c.ancestors t).map (·.1) ↔ u ≠ t ∧ c.Above t u) ∧
      ((c.ancestors t).map (·.1.name)).Nodup ∧
      (c.ancestors t).Pairwise (fun e f => c.distance t e.1 ≤ c.distance t f.1) ∧
      ∀ base,
        (∀ answer, (if t.isNamed base then answer = true
            else c.Seeks (rawName base) [t.name] t.supertypes answer) ↔
          answer = c.inherits t base) ∧
        (c.inherits t base = true ↔
          ∃ u ∈ t :: (c.ancestors t).map (·.1), u.isNamed base = true ∨
            ∃ s ∈ u.supertypes,
              rawName s = rawName base ∨ shortName (rawName s) = rawName base) := by
  have ht : t ∈ c.types := mem_of_byName? hown
  have hwell : WellNamed c t := by
    refine ⟨hown, fun u hu => hshort u ?_⟩
    by_cases hne : u = t
    · exact hne ▸ ht
    · exact mem_types_of_above hu hne
  have hsorted := ((frontier_start hown).explore hown hplain).sorted
  rw [List.append_nil] at hsorted
  refine ⟨collects_iff, fun u => mem_ancestors_iff hown hplain, nodup_names_above, hsorted, ?_⟩
  refine fun base => ⟨seeks_iff base, ?_⟩
  have hleads : c.inherits t base = true ↔ c.LeadsTo t (rawName base) :=
    ⟨leadsTo_of_inherits, inherits_of_leadsTo hwell⟩
  rw [hleads]
  apply exists_congr
  intro u
  rw [above_iff_mem hown hplain, ← or_assoc, TypeDecl.isNamed]
  simp only [Bool.or_eq_true, decide_eq_true_eq]
  rfl

def repository : TypeDecl :=
  { TypeDecl.named "shop.Repository" .interface with
    parameters := ["T"], supertypes := ["Reader<T>", "shop.Writer<T>"] }

def reader : TypeDecl :=
  { TypeDecl.named "shop.Reader" .interface with
    parameters := ["X"], supertypes := ["Store<X>"] }

def writer : TypeDecl :=
  { TypeDecl.named "shop.Writer" .interface with
    parameters := ["X"], supertypes := ["lib.Sink<X>", "Store<X>"] }

def store : TypeDecl :=
  { TypeDecl.named "shop.Store" .interface with
    parameters := ["Y"], supertypes := ["Repository<Y>"] }

def repositories : Catalog :=
  Catalog.insertAll {} [store, writer, reader, repository]

/-- The way back to the repository ends the search. -/
private theorem ancestors_repository :
    (repositories.ancestors repository).map (·.1) = [reader, writer, store] := by
  have hreader : repositories.find? (substitute [] "Reader<T>") = some reader := by decide
  have hwriter : repositories.find? (substitute [] "shop.Writer<T>") = some writer := by decide
  have hsink : repositories.find? (substitute [("X", "T")] "lib.Sink<X>") = none := by decide
  have hstore : repositories.find? (substitute [("X", "T")] "Store<X>") = some store := by decide
  have hback : repositories.find? (substitute [("Y", "T")] "Repository<Y>") =
    some repository := by decide
  have hbound : bind reader.parameters (arguments (substitute [] "Reader<T>")) = [("X", "T")] ∧
      bind writer.parameters (arguments (substitute [] "shop.Writer<T>")) = [("X", "T")] ∧
      bind store.parameters (arguments (substitute [("X", "T")] "Store<X>")) =
        [("Y", "T")] := by decide
  have hextends : reader.supertypes = ["Store<X>"] ∧
      writer.supertypes = ["lib.Sink<X>", "Store<X>"] ∧ store.supertypes = ["Repository<Y>"] :=
    ⟨rfl, rfl, rfl⟩
  have hstart : repositories.ancestors repository = above repositories.find?
      ["shop.Store", "shop.Writer", "shop.Reader"]
      [("Reader<T>", []), ("shop.Writer<T>", [])] := rfl
  have hnames : reader.name = "shop.Reader" ∧ writer.name = "shop.Writer" ∧
      store.name = "shop.Store" ∧ repository.name = "shop.Repository" := ⟨rfl, rfl, rfl, rfl⟩
  simp [hstart, above_of_some hreader, above_of_some hwriter, above_of_some hstore,
    above_of_some hback, above_of_none hsink, hbound, hextends, hnames, without, above]

theorem hierarchy_search_repository :
    repositories.byName? repository.name = some repository ∧
      (∀ u ∈ repositories.types, u.shortName = shortName u.name) ∧ repositories.PlainNames ∧
      (∀ u, u ∈ [reader, writer, store] ↔ u ≠ repository ∧ repositories.Above repository u) ∧
      repositories.distance repository writer ≤ repositories.distance repository store ∧
      repositories.inherits repository "lib.Sink" = true := by
  have hown : repositories.byName? repository.name = some repository := by decide
  have hshort : ∀ u ∈ repositories.types, u.shortName = shortName u.name := by decide
  have hplain : repositories.PlainNames := by
    unfold PlainNames Mentions
    decide
  obtain ⟨-, hmem, -, hsorted, hbase⟩ := hierarchy_search hown hshort hplain
  rw [ancestors_repository] at hmem
  have hdistances : [reader, writer, store].Pairwise fun u v =>
      repositories.distance repository u ≤ repositories.distance repository v := by
    rw [← ancestors_repository]
    exact List.pairwise_map.mpr hsorted
  refine ⟨hown, hshort, hplain, hmem, ?_, (hbase "lib.Sink").2.mpr ?_⟩
  · exact (List.pairwise_cons.mp (List.pairwise_cons.mp hdistances).2).1 store List.mem_cons_self
  · refine ⟨writer, ?_, .inr ⟨"lib.Sink<X>", List.mem_cons_self, .inl ?_⟩⟩
    · rw [ancestors_repository]
      decide
    · decide

end EndpointDocs.Catalog

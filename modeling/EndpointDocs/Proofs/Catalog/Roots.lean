import Mathlib.Logic.Relation
import EndpointDocs.Proofs.Catalog.Finding
import EndpointDocs.Proofs.Catalog.Search
import EndpointDocs.Proofs.TypeText.Parts

namespace EndpointDocs

open TypeText Relation

namespace Catalog

/-- `u` is `t` or a type that supertypes lead to from `t`. -/
def Above (c : Catalog) : TypeDecl → TypeDecl → Prop :=
  ReflTransGen fun t u => ∃ s ∈ t.supertypes, c.find? s = some u

/-- `t` has a root above it by its full name, or as a supertype that nothing is found for. -/
inductive Rooted (c : Catalog) (roots : List String) (t : TypeDecl) : Prop
  | named {u : TypeDecl} {r : String} (above : c.Above t u) (root : r ∈ roots)
      (same : u.name = rawName r)
  | written {u : TypeDecl} {s r : String} (above : c.Above t u) (supertype : s ∈ u.supertypes)
      (unknown : c.find? s = none) (root : r ∈ roots) (spelled : Hits (rawName r) (rawName s))

/-- A type above `t` is called like a root for short, or is found by a supertype that spells one. -/
inductive SharesRoot (c : Catalog) (roots : List String) (t : TypeDecl) : Prop
  | named {u : TypeDecl} {r : String} (above : c.Above t u) (root : r ∈ roots)
      (short : u.shortName = rawName r)
  | written {u v : TypeDecl} {s r : String} (above : c.Above t u) (supertype : s ∈ u.supertypes)
      (found : c.find? s = some v) (root : r ∈ roots) (spelled : Hits (rawName r) (rawName s))

/-- A type above `t` has the name, or is written with a supertype that does. -/
def LeadsTo (c : Catalog) (t : TypeDecl) (base : String) : Prop :=
  ∃ u, c.Above t u ∧
    (u.name = base ∨ u.shortName = base ∨ ∃ s ∈ u.supertypes, Hits base (rawName s))

/-- Every type above `t` has its last segment as its short name, and `t` is in the catalog. -/
structure WellNamed (c : Catalog) (t : TypeDecl) : Prop where
  own : c.byName? t.name = some t
  short : ∀ u, c.Above t u → u.shortName = shortName u.name

variable {c : Catalog} {t u : TypeDecl} {base r : String} {left queue : List String}

theorem isNamed_rawName : u.isNamed (rawName r) = true ↔
    u.name = rawName r ∨ u.shortName = rawName r := by
  simp [TypeDecl.isNamed, rawName_rawName]

theorem Above.own (h : c.Above t u) (ht : c.byName? t.name = some t) :
    c.byName? u.name = some u := by
  induction h with
  | refl => exact ht
  | tail _ hstep _ =>
    obtain ⟨s, _, hfind⟩ := hstep
    exact byName?_of_find? hfind

/-- All that is above a type stands in every list that has the type and is closed upwards. -/
theorem Above.mem {types : List TypeDecl} (hclosed : ∀ v ∈ types, ∀ s ∈ v.supertypes,
    ∀ w, c.find? s = some w → w ∈ types) (ht : t ∈ types) (h : c.Above t u) : u ∈ types := by
  induction h with
  | refl => exact ht
  | tail _ hstep ih =>
    obtain ⟨s, hs, hfind⟩ := hstep
    exact hclosed _ ih s hs _ hfind

theorem mem_supertypeNames (h : c.Above t u) {s : String} (hs : s ∈ u.supertypes) :
    rawName s ∈ c.supertypeNames t := by
  refine List.mem_map_of_mem ?_
  rcases ReflTransGen.cases_tail h with rfl | ⟨v, _, _, _, hfind⟩
  · exact List.mem_append_left _ hs
  · exact List.mem_append_right _ (List.mem_flatMap.mpr ⟨u, mem_of_find? hfind, hs⟩)

private theorem leadsTo_of_meets (hqueue : ∀ s ∈ queue, ∃ u, c.Above t u ∧ s ∈ u.supertypes)
    (h : meets c.find? (rawName r) left queue = true) : c.LeadsTo t (rawName r) := by
  induction left, queue using meets_induction c.find? (rawName r) with
  | nil left => simp [meets] at h
  | hits left s queue _ hhit =>
    obtain ⟨u, habove, hs⟩ := hqueue s List.mem_cons_self
    exact ⟨u, habove, .inr (.inr ⟨s, hs, hhit⟩)⟩
  | unknown left s queue hmem hmiss hfind ih =>
    rw [meets_of_none hmem hmiss hfind] at h
    exact ih (fun s hs => hqueue s (List.mem_cons_of_mem _ hs)) h
  | enter left s queue v hmem hmiss hfind ih =>
    obtain ⟨u, habove, hs⟩ := hqueue s List.mem_cons_self
    have hv : c.Above t v := habove.tail ⟨s, hs, (c.find?_rawName s).symm.trans hfind⟩
    rw [meets_of_some hmem hmiss hfind, Bool.or_eq_true] at h
    rcases h with hnamed | hrest
    · have hname := isNamed_rawName.mp hnamed
      exact ⟨v, hv, hname.imp_right .inl⟩
    · refine ih ?_ hrest
      intro s hs
      rcases List.mem_append.mp hs with hs | hs
      · exact hqueue s (List.mem_cons_of_mem _ hs)
      · exact ⟨v, hv, hs⟩
  | read left s queue hmem ih =>
    rw [meets_of_not_mem hmem] at h
    exact ih (fun s hs => hqueue s (List.mem_cons_of_mem _ hs)) h

/-- What a search keeps that does not meet the root: the names that it looks at no more are spent,
and what is still to come has been written by types above `t`. -/
structure Searching (c : Catalog) (t : TypeDecl) (base : String) (left queue : List String) :
    Prop where
  queued : ∀ s ∈ queue, ∃ u, c.Above t u ∧ s ∈ u.supertypes
  spent : ∀ n ∈ c.supertypeNames t, n ∉ left → Spent c.find? base left queue n
  covered : Covered left queue t.supertypes

private theorem not_hits_name (h : u.shortName = shortName u.name)
    (hnamed : u.isNamed (rawName r) = false) :
    ¬ Hits (rawName r) u.name := by
  intro hhit
  have hname : u.isNamed (rawName r) = true := isNamed_rawName.mpr (h ▸ hhit)
  rw [hname] at hnamed
  cases hnamed

/-- The full name of a type is spent when the type has been entered. -/
theorem spent_name (hown : c.byName? u.name = some u) (hshort : u.shortName = shortName u.name)
    (hnamed : u.isNamed (rawName r) = false) (hleft : u.name ∉ left)
    (hcovered : Covered left queue u.supertypes) {n : String} (hraw : rawName n = n)
    (hn : n = u.name) : Spent c.find? (rawName r) left queue n where
  missed := hn ▸ not_hits_name hshort hnamed
  parent v hv := by
    have hfind : c.byName? n = some u := hn ▸ hown
    rw [find?, hraw] at hv
    split at hv
    · cases hv
    · obtain rfl : u = v := by simpa [hfind] using hv
      exact ⟨hnamed, hleft, hcovered⟩

/-- Where the search goes on after reading `s`, with `more` to come at the end. -/
theorem Searching.next {s : String} {rest more : List String}
    (h : Searching c t base left (s :: queue)) (hsub : ∀ n ∈ rest, n ∈ left)
    (hread : rawName s ∉ rest) (hmore : ∀ s ∈ more, ∃ u, c.Above t u ∧ s ∈ u.supertypes)
    (hnew : ∀ n ∈ c.supertypeNames t, n ∈ left → n ∉ rest →
      Spent c.find? base rest (queue ++ more) n) :
    Searching c t base rest (queue ++ more) where
  queued s hs := by
    rcases List.mem_append.mp hs with hs | hs
    · exact h.queued s (List.mem_cons_of_mem _ hs)
    · exact hmore s hs
  spent n hn hrest := by
    by_cases hmem : n ∈ left
    · exact hnew n hn hmem hrest
    · exact ((h.spent n hn hmem).read hsub hread).append more
  covered := (h.covered.read hsub hread).append more

/-- Where the search goes on after a name that it looks at no more. -/
theorem Searching.read {s : String} (h : Searching c t base left (s :: queue))
    (hmem : rawName s ∉ left) : Searching c t base left queue := by
  have hnext : Searching c t base left (queue ++ []) :=
    h.next (fun _ => id) hmem (fun _ hs => nomatch hs) (fun n _ hn hrest => absurd hn hrest)
  rwa [List.append_nil] at hnext

/-- Where the search goes on after a name that nothing is known by. -/
theorem Searching.pass {s : String} (h : Searching c t base left (s :: queue))
    (hmiss : ¬ Hits base (rawName s)) (hfind : c.find? (rawName s) = none) :
    Searching c t base (without (rawName s) left) queue := by
  have hnext : Searching c t base (without (rawName s) left) (queue ++ []) := by
    refine h.next (fun _ => mem_of_mem_without) not_mem_without_self (fun _ hs => nomatch hs) ?_
    intro n _ hn hrest
    have hsame : n = rawName s := by
      by_contra hne
      exact hrest (mem_without.mpr ⟨hn, hne⟩)
    subst hsame
    exact ⟨hmiss, fun v hv => nomatch hfind.symm.trans hv⟩
  rwa [List.append_nil] at hnext

/-- Where the search goes on after a type that is not the root. The type is spent by the name that
it was read by and by its full name. -/
theorem Searching.enter {s : String} {v : TypeDecl} (hw : WellNamed c t)
    (h : Searching c t (rawName r) left (s :: queue)) (hmiss : ¬ Hits (rawName r) (rawName s))
    (hfind : c.find? (rawName s) = some v) (hnamed : v.isNamed (rawName r) = false) :
    Searching c t (rawName r) (without v.name (without (rawName s) left))
      (queue ++ v.supertypes) := by
  obtain ⟨u, habove, hs⟩ := h.queued s List.mem_cons_self
  have hv : c.Above t v := habove.tail ⟨s, hs, (c.find?_rawName s).symm.trans hfind⟩
  have hleft : v.name ∉ without v.name (without (rawName s) left) := not_mem_without_self
  have hcovered : Covered (without v.name (without (rawName s) left)) (queue ++ v.supertypes)
      v.supertypes := by
    intro s hs
    exact .inr (List.mem_map_of_mem (List.mem_append_right _ hs))
  refine h.next ?_ ?_ (fun s hs => ⟨v, hv, hs⟩) ?_
  · exact fun n hn => mem_of_mem_without (mem_of_mem_without hn)
  · exact fun hn => not_mem_without_self (mem_of_mem_without hn)
  · intro n hnames hn hrest
    by_cases hread : n = rawName s
    · subst hread
      refine ⟨hmiss, fun w hw => ?_⟩
      obtain rfl : v = w := Option.some.inj (hfind.symm.trans hw)
      exact ⟨hnamed, hleft, hcovered⟩
    · have hname : n = v.name := by
        by_contra hne
        exact hrest (mem_without.mpr ⟨mem_without.mpr ⟨hn, hread⟩, hne⟩)
      obtain ⟨m, -, rfl⟩ := List.mem_map.mp hnames
      exact spent_name (hv.own hw.own) (hw.short v hv) hnamed hleft hcovered
        (rawName_rawName m) hname

/-- A search that does not meet the root ends with everything above `t` looked at. -/
theorem Searching.ends (hw : WellNamed c t) (h : Searching c t (rawName r) left queue)
    (hmeets : meets c.find? (rawName r) left queue = false) :
    ∃ rest, Searching c t (rawName r) rest [] := by
  induction left, queue using meets_induction c.find? (rawName r) with
  | nil left => exact ⟨left, h⟩
  | hits left s queue hmem hhit =>
    rw [meets_of_hits hmem hhit] at hmeets
    cases hmeets
  | unknown left s queue hmem hmiss hfind ih =>
    rw [meets_of_none hmem hmiss hfind] at hmeets
    exact ih (h.pass hmiss hfind) hmeets
  | enter left s queue v hmem hmiss hfind ih =>
    rw [meets_of_some hmem hmiss hfind, Bool.or_eq_false_iff] at hmeets
    exact ih (h.enter hw hmiss hfind hmeets.1) hmeets.2
  | read left s queue hmem ih =>
    rw [meets_of_not_mem hmem] at hmeets
    exact ih (h.read hmem) hmeets

/-- Nothing above `t` leads to a root that a search along its supertypes does not meet. -/
theorem Searching.not_leadsTo {rest : List String} (h : Searching c t (rawName r) rest [])
    (hnamed : t.isNamed (rawName r) = false) : ¬ c.LeadsTo t (rawName r) := by
  have hread {v : TypeDecl} {s : String} (hs : s ∈ v.supertypes)
      (hcovered : Covered rest [] v.supertypes) : rawName s ∉ rest :=
    (hcovered s hs).resolve_right (by simp)
  -- Nothing is queued any more, so all supertypes of a type that was entered have been read.
  have hpassed (v : TypeDecl) (hv : c.Above t v) :
      v.isNamed (rawName r) = false ∧ Covered rest [] v.supertypes := by
    induction hv with
    | refl => exact ⟨hnamed, h.covered⟩
    | @tail v w hv hstep ih =>
      obtain ⟨s, hs, hfind⟩ := hstep
      have hspent := h.spent (rawName s) (mem_supertypeNames hv hs) (hread hs ih.2)
      obtain ⟨hw, -, hcovered⟩ := hspent.parent w ((c.find?_rawName s).trans hfind)
      exact ⟨hw, hcovered⟩
  rintro ⟨u, hu, hleads⟩
  obtain ⟨hu_named, hcovered⟩ := hpassed u hu
  have hnot : ¬ (u.name = rawName r ∨ u.shortName = rawName r) := by
    rw [← isNamed_rawName, hu_named]
    exact Bool.false_ne_true
  rcases hleads with hname | hshort | ⟨s, hs, hhit⟩
  · exact hnot (.inl hname)
  · exact hnot (.inr hshort)
  · exact (h.spent (rawName s) (mem_supertypeNames hu hs) (hread hs hcovered)).missed hhit

theorem leadsTo_of_inherits (h : c.inherits t r = true) : c.LeadsTo t (rawName r) := by
  rw [inherits, Bool.or_eq_true] at h
  rcases h with hnamed | hmeets
  · exact ⟨t, .refl, (isNamed_rawName.mp hnamed).imp_right .inl⟩
  · exact leadsTo_of_meets (fun s hs => ⟨t, .refl, hs⟩) hmeets

theorem inherits_of_leadsTo (hw : WellNamed c t) (h : c.LeadsTo t (rawName r)) :
    c.inherits t r = true := by
  by_contra hnot
  rw [inherits, Bool.or_eq_true, not_or, Bool.not_eq_true, Bool.not_eq_true] at hnot
  obtain ⟨hnamed, hmeets⟩ := hnot
  have hcovered : Covered (without t.name (c.supertypeNames t)) t.supertypes t.supertypes :=
    fun s hs => .inr (List.mem_map_of_mem hs)
  have hstart : Searching c t (rawName r) (without t.name (c.supertypeNames t)) t.supertypes := by
    refine ⟨fun s hs => ⟨t, .refl, hs⟩, ?_, hcovered⟩
    intro n hn hleft
    have hname : n = t.name := by
      by_contra hne
      exact hleft (mem_without.mpr ⟨hn, hne⟩)
    obtain ⟨m, -, rfl⟩ := List.mem_map.mp hn
    exact spent_name hw.own (hw.short t .refl) hnamed not_mem_without_self hcovered
      (rawName_rawName m) hname
  obtain ⟨rest, hrest⟩ := hstart.ends hw hmeets
  exact hrest.not_leadsTo hnamed h

theorem leadsTo_root_iff {roots : List String} : (∃ r ∈ roots, c.LeadsTo t (rawName r)) ↔
    Rooted c roots t ∨ SharesRoot c roots t := by
  constructor
  · rintro ⟨r, hr, u, hu, hname | hshort | ⟨s, hs, hhit⟩⟩
    · exact .inl (.named hu hr hname)
    · exact .inr (.named hu hr hshort)
    · cases hfind : c.find? s with
      | none => exact .inl (.written hu hs hfind hr hhit)
      | some v => exact .inr (.written hu hs hfind hr hhit)
  · rintro ((⟨hu, hr, hname⟩ | ⟨hu, hs, _, hr, hhit⟩) | (⟨hu, hr, hshort⟩ | ⟨hu, hs, _, hr, hhit⟩))
    · exact ⟨_, hr, _, hu, .inl hname⟩
    · exact ⟨_, hr, _, hu, .inr (.inr ⟨_, hs, hhit⟩)⟩
    · exact ⟨_, hr, _, hu, .inr (.inl hshort)⟩
    · exact ⟨_, hr, _, hu, .inr (.inr ⟨_, hs, hhit⟩)⟩

end Catalog

namespace Project

open Catalog

variable {p : Project} {t : TypeDecl} {roots : List String}

private theorem rooted_of_inheritsAny (h : p.inheritsAny t roots = true) :
    Rooted p.catalog roots t ∨ SharesRoot p.catalog roots t := by
  obtain ⟨r, hr, hinherits⟩ := List.any_eq_true.mp h
  exact leadsTo_root_iff.mp ⟨r, hr, leadsTo_of_inherits hinherits⟩

/-- A type has no root above it if nothing in a list that is closed upwards names one. -/
theorem inheritsAny_eq_false {types : List TypeDecl} (hclosed : ∀ v ∈ types, ∀ s ∈ v.supertypes,
    ∀ w, p.catalog.find? s = some w → w ∈ types)
    (hroots : ∀ v ∈ types, ∀ r ∈ roots, v.name ≠ rawName r ∧ v.shortName ≠ rawName r ∧
      ∀ s ∈ v.supertypes, ¬ Hits (rawName r) (rawName s))
    (ht : t ∈ types) : p.inheritsAny t roots = false := by
  apply List.any_eq_false.mpr
  intro r hr hinherits
  obtain ⟨v, habove, hnames⟩ := leadsTo_of_inherits hinherits
  obtain ⟨hname, hshort, hsupertypes⟩ := hroots v (habove.mem hclosed ht) r hr
  rcases hnames with h | h | ⟨s, hs, hhit⟩
  · exact hname h
  · exact hshort h
  · exact hsupertypes s hs hhit

private theorem inheritsAny_of_rooted (hw : WellNamed p.catalog t)
    (h : Rooted p.catalog roots t ∨ SharesRoot p.catalog roots t) :
    p.inheritsAny t roots = true := by
  obtain ⟨r, hr, hleads⟩ := leadsTo_root_iff.mpr h
  exact List.any_eq_true.mpr ⟨r, hr, inherits_of_leadsTo hw hleads⟩

/-- A collection, or a map, has a configured root above it or shares the short name of one; where
names and short names belong together every such type is one. -/
theorem container_roots (p : Project) (t : TypeDecl) :
    (p.isCollection t = true →
      Rooted p.catalog p.settings.collectionTypes t ∨
        SharesRoot p.catalog p.settings.collectionTypes t) ∧
    (p.isMap t = true →
      Rooted p.catalog p.settings.mapTypes t ∨ SharesRoot p.catalog p.settings.mapTypes t) ∧
    (WellNamed p.catalog t →
      (Rooted p.catalog p.settings.collectionTypes t ∨
        SharesRoot p.catalog p.settings.collectionTypes t → p.isCollection t = true) ∧
      (Rooted p.catalog p.settings.mapTypes t ∨ SharesRoot p.catalog p.settings.mapTypes t →
        p.isMap t = true)) :=
  ⟨rooted_of_inheritsAny, rooted_of_inheritsAny,
    fun hw => ⟨inheritsAny_of_rooted hw, inheritsAny_of_rooted hw⟩⟩

/-- A type of the project that only shares its short name with a root. -/
def ownCollection : TypeDecl :=
  { name := "demo.Collection", shortName := "Collection", kind := .record }

def ownCollectionProject : Project :=
  Project.of (({} : Catalog).insert ownCollection) {}

private theorem above_ownCollection {u : TypeDecl}
    (h : ownCollectionProject.catalog.Above ownCollection u) : u = ownCollection := by
  rcases ReflTransGen.cases_head h with rfl | ⟨v, ⟨s, hs, _⟩, _⟩
  · rfl
  · cases hs

private theorem not_rooted_ownCollection :
    ¬ Rooted ownCollectionProject.catalog ownCollectionProject.settings.collectionTypes
      ownCollection := by
  have hroots : ∀ r ∈ ({} : Settings).collectionTypes, ownCollection.name ≠ rawName r := by
    decide
  rintro (⟨hu, hr, hname⟩ | ⟨hu, hs, _, _, _⟩)
  · rw [above_ownCollection hu] at hname
    exact hroots _ hr hname
  · rw [above_ownCollection hu] at hs
    cases hs

private theorem sharesRoot_ownCollection :
    SharesRoot ownCollectionProject.catalog ownCollectionProject.settings.collectionTypes
      ownCollection := by
  have hroot : "Collection" ∈ ({} : Settings).collectionTypes := by decide
  have hshort : ownCollection.shortName = rawName "Collection" := by decide
  exact .named .refl hroot hshort

private theorem wellNamed_ownCollection : WellNamed ownCollectionProject.catalog ownCollection := by
  have hcatalog : ownCollectionProject.catalog = ({} : Catalog).insert ownCollection := rfl
  refine ⟨?_, fun u hu => ?_⟩
  · rw [hcatalog]
    decide
  · rw [above_ownCollection hu]
    decide

/-- The default roots make a collection of it. -/
theorem container_roots_ownCollection :
    SharesRoot ownCollectionProject.catalog ownCollectionProject.settings.collectionTypes
      ownCollection ∧ ownCollectionProject.isCollection ownCollection = true := by
  have hroots := container_roots ownCollectionProject ownCollection
  exact ⟨sharesRoot_ownCollection,
    (hroots.2.2 wellNamed_ownCollection).1 (.inr sharesRoot_ownCollection)⟩

/-- It is documented as an array although no root is above it. -/
theorem isCollection_ownCollection :
    ownCollection.shortName = shortName ownCollection.name ∧ ownCollection.supertypes = [] ∧
      ownCollectionProject.catalog.byName? ownCollection.name = some ownCollection ∧
      ownCollectionProject.isCollection ownCollection = true ∧
      ¬ Rooted ownCollectionProject.catalog ownCollectionProject.settings.collectionTypes
        ownCollection := by
  refine ⟨wellNamed_ownCollection.short _ .refl, rfl, wellNamed_ownCollection.own, ?_,
    not_rooted_ownCollection⟩
  exact inheritsAny_of_rooted wellNamed_ownCollection (.inr sharesRoot_ownCollection)

end Project

end EndpointDocs

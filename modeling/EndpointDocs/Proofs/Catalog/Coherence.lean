import EndpointDocs.Proofs.Catalog.History

namespace EndpointDocs.Catalog

variable {library : List String} {ts : List TypeDecl}

/-- A call that brings types into a catalog. -/
inductive Registration
  | insert (t : TypeDecl)
  | extend (ts : List TypeDecl)

def Registration.types : Registration → List TypeDecl
  | insert t => [t]
  | extend ts => ts

def register (c : Catalog) : Registration → Catalog
  | .insert t => c.insert t
  | .extend ts => c.insertAll ts

theorem register_eq (c : Catalog) (r : Registration) : c.register r = c.insertAll r.types := by
  cases r <;> rfl

private theorem foldl_register (c : Catalog) (calls : List Registration) :
    calls.foldl register c = c.insertAll (calls.flatMap Registration.types) := by
  induction calls generalizing c with
  | nil => rfl
  | cons r calls ih => rw [List.foldl_cons, ih, register_eq, List.flatMap_cons, insertAll_append]

/-- Calls on a catalog that holds types of libraries alone, or none. -/
theorem foldl_register_library (ls : List TypeDecl) (calls : List Registration) :
    calls.foldl register (ls.foldl insertLibrary {}) =
      ({ library := ls.map (·.name) } : Catalog).insertAll
        (ls ++ calls.flatMap Registration.types) := by
  have hstart : ls.foldl insertLibrary {} =
      ({ library := ls.map (·.name) } : Catalog).insertAll ls :=
    foldl_insertLibrary rfl rfl rfl
  rw [foldl_register, hstart, insertAll_append]

/-- Short names lead to types that have them, and the short name of each type does so. -/
structure Coherent (c : Catalog) : Prop where
  answers : ∀ short t, c.byShortName? short = some t → t.shortName = short
  entries : ∀ t ∈ c.types, ∃ u ∈ c.types,
    c.byShortName? t.shortName = some u ∧ u.shortName = t.shortName

/-- A type whose short name leads to it has this short name also as it came in last. -/
def OwnersStay (library : List String) (ts : List TypeDecl) : Prop :=
  ∀ t ∈ ts, owner? library ts t.normalized.shortName = some t.name →
    ∀ u, latest? ts t.name = some u → u.shortName = t.normalized.shortName

/-- A type that is there came in at some time. -/
theorem exists_of_mem_types {t : TypeDecl} (ht : t ∈ (({ library } : Catalog).insertAll ts).types) :
    ∃ u ∈ ts, t = u.normalized := by
  rw [types_of_history] at ht
  obtain ⟨name, -, hlatest⟩ := List.mem_filterMap.mp ht
  obtain ⟨u, hu, -, rfl⟩ := exists_of_latest? hlatest
  exact ⟨u, hu, rfl⟩

/-- Whatever short name a type has leads to some type. -/
theorem exists_byShortName? {t : TypeDecl} (ht : t ∈ (({ library } : Catalog).insertAll ts).types) :
    ∃ u ∈ (({ library } : Catalog).insertAll ts).types,
      (({ library } : Catalog).insertAll ts).byShortName? t.shortName = some u := by
  obtain ⟨s, hs, rfl⟩ := exists_of_mem_types ht
  obtain ⟨name, hname⟩ := Option.isSome_iff_exists.mp (isSome_owner? library hs)
  obtain ⟨v, hv, rfl, -⟩ := exists_of_owner? hname
  obtain ⟨u, hu⟩ := Option.isSome_iff_exists.mp (isSome_latest? hv)
  have hentry : (({ library } : Catalog).insertAll ts).byShortName? s.normalized.shortName =
      some u := by
    rw [byShortName?_of_history, hname, Option.bind_some, hu]
  exact ⟨u, mem_of_byShortName? hentry, hentry⟩

theorem coherent_of_ownersStay (h : OwnersStay library ts) :
    (({ library } : Catalog).insertAll ts).Coherent := by
  have hanswers (short : String) (t : TypeDecl)
      (hfound : (({ library } : Catalog).insertAll ts).byShortName? short = some t) :
      t.shortName = short := by
    rw [byShortName?_of_history] at hfound
    obtain ⟨name, hname, hlatest⟩ := Option.bind_eq_some_iff.mp hfound
    obtain ⟨u, hu, rfl, rfl⟩ := exists_of_owner? hname
    exact h u hu hname t hlatest
  refine ⟨hanswers, fun t ht => ?_⟩
  obtain ⟨u, hu, hentry⟩ := exists_byShortName? ht
  exact ⟨u, hu, hentry, hanswers _ _ hentry⟩

theorem ownersStay_of_coherent (h : (({ library } : Catalog).insertAll ts).Coherent) :
    OwnersStay library ts := by
  intro t _ howner u hlatest
  apply h.answers
  rw [byShortName?_of_history, howner, Option.bind_some, hlatest]

/-- Types that come in under one short name each stay with it. -/
theorem ownersStay_of_names (h : ∀ t ∈ ts, ∀ u ∈ ts, t.name = u.name →
      t.normalized.shortName = u.normalized.shortName) :
    OwnersStay library ts := by
  intro t ht _ u hlatest
  obtain ⟨v, hv, hname, rfl⟩ := exists_of_latest? hlatest
  exact h v hv t ht hname

/-- After any calls on an empty catalog, or on one of a library's types: short names lead to types
that have them exactly if no type that still owns a short name came in last under another one, as
where every full name comes with one short name. The short name of each type leads to a type in any
case. -/
theorem coherent_iff (ls : List TypeDecl) (calls : List Registration) :
    let c := calls.foldl register (ls.foldl insertLibrary {})
    let history := ls ++ calls.flatMap Registration.types
    (c.Coherent ↔ OwnersStay (ls.map (·.name)) history) ∧
      ((∀ t ∈ history, ∀ u ∈ history, t.name = u.name →
          t.normalized.shortName = u.normalized.shortName) → c.Coherent) ∧
      ∀ t ∈ c.types, ∃ u ∈ c.types, c.byShortName? t.shortName = some u := by
  dsimp only
  rw [foldl_register_library]
  refine ⟨⟨ownersStay_of_coherent, coherent_of_ownersStay⟩, fun hnames => ?_, fun t => exists_byShortName?⟩
  exact coherent_of_ownersStay (ownersStay_of_names hnames)

def listType : TypeDecl :=
  TypeDecl.named "shop::List" .record

def userType : TypeDecl :=
  { TypeDecl.named "shop::User" .record with
    fields := [{ name := "tags", typeText := "List" }] }

theorem coherent_shop :
    let calls := [.extend [listType, { name := "shop::User" }], .insert userType]
    let history := libraryTypes ++ calls.flatMap Registration.types
    (∀ t ∈ history, ∀ u ∈ history, t.name = u.name →
        t.normalized.shortName = u.normalized.shortName) ∧
      OwnersStay (libraryTypes.map (·.name)) history ∧
      (calls.foldl register withLibrary).Coherent ∧
      (calls.foldl register withLibrary).byShortName? "List" = some listType ∧
      (calls.foldl register withLibrary).byShortName? "User" = some userType := by
  intro calls history
  have hnames : ∀ t ∈ history, ∀ u ∈ history, t.name = u.name →
      t.normalized.shortName = u.normalized.shortName := by
    decide
  have hfound : (calls.foldl register withLibrary).byShortName? "List" = some listType ∧
      (calls.foldl register withLibrary).byShortName? "User" = some userType := by
    decide
  obtain ⟨hiff, hcoherent, -⟩ := coherent_iff libraryTypes calls
  have hc := hcoherent hnames
  exact ⟨hnames, hiff.mp hc, hc, hfound⟩

/-- An account that came in as a login is still found as one, though it is none any more and there
is a type that is. -/
theorem former_short_name_stays :
    let account := TypeDecl.named "shop.Account" .record
    let login := TypeDecl.named "auth.Login" .record
    let calls := [.insert { account with shortName := "Login" }, .extend [account, login]]
    let c := calls.foldl register withLibrary
    login ∈ c.types ∧ login.shortName = "Login" ∧ c.byShortName? "Login" = some account ∧
      account.shortName = "Account" ∧ ¬ c.Coherent := by
  intro account login calls c
  have hstate : login ∈ c.types ∧ c.byShortName? "Login" = some account := by decide
  obtain ⟨hlogin, hfound⟩ := hstate
  refine ⟨hlogin, by decide, hfound, by decide, fun h => ?_⟩
  have hshort : account.shortName = "Login" := h.answers "Login" account hfound
  exact absurd hshort (by decide)

end EndpointDocs.Catalog

import EndpointDocs.Proofs.Resolution.Records

namespace EndpointDocs.Schema

open TypeText Shape Noting OrderedMap

variable {p : Project} {u : Usage} {name : String} {t : TypeDecl} {arguments : List String}
  {chain : Chain} {o : TypeOverride}

/-- Members that keep their names are documented under names that are admitted. -/
theorem admits_of_mem_memberNames (ho : p.settings.typeOverride? name (some t) = some o)
    (hnames : ∀ m ∈ Member.ofType p t, m.documentedName (some o) = m.name) {key : String}
    (hkey : key ∈ memberNames p name t) : o.admits key = true := by
  rw [memberNames, ho] at hkey
  obtain ⟨m, hm, rfl⟩ := List.mem_map.mp hkey
  obtain ⟨hmember, hshown⟩ := List.mem_filter.mp hm
  rw [hnames m hmember]
  exact (Bool.and_eq_true_iff.mp hshown).1

/-- Where no member is renamed, each property of a type is admitted or is taken over by a `see` tag,
and all properties are admitted exactly if all those are that the tags take over. -/
theorem resolve_admitted {w v : List Warning} {found : Option Schema}
    (hstep : step p t.name = .settled (.members name t arguments))
    (hchain : chain.has t.name = false)
    (ho : p.settings.typeOverride? name (some t) = some o)
    (hnames : ∀ m ∈ Member.ofType p t, m.documentedName (some o) = m.name)
    (h : resolve p u chain t.name w = some (found, v)) :
    ∃ m, found = some (withProperties m) ∧
      (∀ k ∈ keys m, o.admits k = true ∨ ∃ target, SeenKey p u chain t target k) ∧
      ((∀ k ∈ keys m, o.admits k = true) ↔
        ∀ target k, SeenKey p u chain t target k → o.admits k = true) := by
  obtain ⟨taken, own, w', htaken, hown, rfl⟩ := (resolve_members hstep hchain).mp h
  have hkeys (k : String) : k ∈ keys (ofEntries (taken.flatten ++ own.flatten)) ↔
      (∃ target, SeenKey p u chain t target k) ∨ k ∈ own.flatten.map Prod.fst := by
    rw [ofEntries, mem_keys_putAll, List.map_append, List.mem_append, mem_taken_iff htaken]
    simp [keys]
  have hadmitted {k : String} (hk : k ∈ own.flatten.map Prod.fst) : o.admits k = true :=
    admits_of_mem_memberNames ho hnames (mem_memberNames hown hk)
  refine ⟨_, rfl, fun k hk => ?_, fun hall target k hseen => ?_, fun hall k hk => ?_⟩
  · exact ((hkeys k).mp hk).symm.imp_left hadmitted
  · exact hall k ((hkeys k).mpr (.inl ⟨target, hseen⟩))
  · rcases (hkeys k).mp hk with ⟨target, hseen⟩ | hown
    · exact hall target k hseen
    · exact hadmitted hown

def base : TypeDecl :=
  { name := "Base", shortName := "Base", kind := .record
    fields := [{ name := "id", typeText := "int" }, { name := "password", typeText := "String" }] }

def account : TypeDecl :=
  { name := "Account", shortName := "Account", kind := .record, supertypes := ["Base"]
    fields := [{ name := "owner", typeText := "String" }]
    doc := { tags := [⟨"see", "Base"⟩] } }

def noPassword : TypeOverride :=
  { excludes := ["password"] }

def accounts : Project :=
  Project.of (({} : Catalog).insertAll [base, account]) { types := [("Account", noPassword)] }

private theorem isRecord_accounts (ht : t ∈ [base, account]) : accounts.IsRecord t := by
  have hcatalog : accounts.catalog = ({} : Catalog).insertAll [base, account] := rfl
  have hfound : ∀ v ∈ [base, account], accounts.catalog.find? v.name = some v := by
    rw [hcatalog]
    decide
  exact Project.isRecord_of_closed hfound (by decide) (by decide) (by decide) ht

private theorem members_accounts (ht : t ∈ [base, account]) : Member.ofType accounts t =
    (if t = base then base.fields else account.fields ++ base.fields).filterMap Member.ofField := by
  rw [(isRecord_accounts ht).members rfl]
  rcases List.mem_pair.mp ht with rfl | rfl
  · rw [Catalog.allFields_of_supertypes_eq_nil _ rfl, if_pos rfl]
  · have hbase := (isRecord_accounts (t := base) (by simp)).found
    have hancestors : accounts.catalog.ancestors account = [(base, [])] :=
      Catalog.ancestors_of_top_supertype rfl hbase (by decide) (List.forall_mem_nil _)
    have hfields : accounts.catalog.allFields account = account.fields ++ base.fields := by
      rw [Catalog.allFields, hancestors]
      decide
    rw [hfields, if_neg (by decide)]

private theorem hasPlainMembers_accounts (ht : t ∈ [base, account]) :
    HasPlainMembers accounts t.name t [] := by
  apply hasPlainMembers_of_scalars
  rw [memberTexts, members_accounts ht]
  rcases List.mem_pair.mp ht with rfl | rfl <;> decide

private theorem memberNames_accounts : memberNames accounts "Base" base = ["id", "password"] ∧
    memberNames accounts "Account" account = ["owner", "id"] := by
  rw [memberNames, memberNames, members_accounts (by simp), members_accounts (by simp)]
  constructor <;> decide

private theorem typeOverride?_account :
    accounts.settings.typeOverride? "Account" (some account) = some noPassword :=
  rfl

private theorem documentedName_accounts (ht : t ∈ [base, account]) : ∀ m ∈ Member.ofType accounts t,
    m.documentedName (accounts.settings.typeOverride? t.name (some t)) = m.name := by
  have hannotations : ∀ m ∈ Member.ofType accounts t, m.annotations = [] := by
    rw [members_accounts ht]
    rcases List.mem_pair.mp ht with rfl | rfl <;> decide
  have hfields : ∀ o ∈ accounts.settings.typeOverride? t.name (some t), o.fields = [] := by
    rcases List.mem_pair.mp ht with rfl | rfl <;> decide
  intro m hm
  apply Member.documentedName_eq
  · rw [hannotations m hm]
    rfl
  · intro o ho f hf
    rw [hfields o ho] at hf
    cases hf

private theorem step_account : step accounts "Account" = .settled (.members "Account" account []) :=
  (isRecord_accounts (t := account) (by simp)).step

private theorem related?_account :
    seeTexts account = ["Base"] ∧ related? accounts account "Base" = some base := by
  have hinherits : accounts.catalog.inherits account base.name = true := by
    have hextends : account.supertypes = ["Base"] := rfl
    have hraw : rawName "Base" = "Base" ∧ rawName base.name = "Base" := by decide
    have hleft : rawName "Base" ∈ Catalog.without account.name
        (accounts.catalog.supertypeNames account) := by
      refine Catalog.mem_without.mpr ⟨Catalog.mem_supertypeNames .refl (.head _), ?_⟩
      rw [hraw.1]
      decide
    have hhit : Catalog.Hits (rawName base.name) (rawName "Base") := by
      rw [hraw.1, hraw.2]
      exact .inl rfl
    rw [Catalog.inherits, hextends, Catalog.meets_of_hits hleft hhit, Bool.or_true]
  have hfind : accounts.catalog.find? "Base" = some base :=
    (isRecord_accounts (t := base) (by simp)).found
  refine ⟨by decide, ?_⟩
  rw [related?, hfind, Option.filter_some, hinherits, Bool.or_true, if_pos rfl]

private theorem resolve_account (u : Usage) (w : List Warning) :
    ∃ m, resolve accounts u [] "Account" w = some (some (withProperties m), w) ∧
      ∀ k, k ∈ keys m ↔ k ∈ ["id", "password"] ∨ k ∈ ["owner", "id"] := by
  have hplain : ∀ s ∈ [account, base], HasPlainMembers accounts s.name s [] :=
    fun s hs => hasPlainMembers_accounts (List.mem_pair.mpr (List.mem_pair.mp hs).symm)
  obtain ⟨m, hm, hkeys⟩ := resolve_of_see (isRecord_accounts (t := account) (by simp))
    (isRecord_accounts (t := base) (by simp)) (by decide) related?_account.1 related?_account.2 rfl
    hplain u w
  have hnames : memberNames accounts base.name base = ["id", "password"] ∧
      memberNames accounts account.name account = ["owner", "id"] := memberNames_accounts
  refine ⟨m, hm, fun k => ?_⟩
  rw [hkeys, hnames.1, hnames.2]

/-- A property that is excluded comes back by way of a `see` tag. -/
theorem see_adds_excluded :
    step accounts account.name = .settled (.members "Account" account []) ∧
      accounts.settings.typeOverride? "Account" (some account) = some noPassword ∧
      (∀ t ∈ [base, account], ∀ m ∈ Member.ofType accounts t,
        m.documentedName (accounts.settings.typeOverride? t.name (some t)) = m.name) ∧
      ∃ m, resolve accounts ⟨.response, .body⟩ [] "Account" [] =
          some (some (withProperties m), []) ∧
        "password" ∈ keys m ∧ noPassword.admits "password" = false := by
  obtain ⟨m, hm, hkeys⟩ := resolve_account ⟨.response, .body⟩ []
  refine ⟨step_account, typeOverride?_account, fun t ht => documentedName_accounts ht, m, hm, ?_,
    by decide⟩
  exact (hkeys _).mpr (.inl (by simp))

/-- The excluded property of an account is one that its tag takes over. -/
theorem resolve_admitted_account :
    step accounts account.name = .settled (.members "Account" account []) ∧
      (∀ m ∈ Member.ofType accounts account, m.documentedName (some noPassword) = m.name) ∧
      ∃ m, resolve accounts ⟨.response, .body⟩ [] "Account" [] =
          some (some (withProperties m), []) ∧
        noPassword.admits "password" = false ∧
        ∃ target, SeenKey accounts ⟨.response, .body⟩ [] account target "password" := by
  obtain ⟨m, hm, hkeys⟩ := resolve_account ⟨.response, .body⟩ []
  have hnames : ∀ m ∈ Member.ofType accounts account,
      m.documentedName (some noPassword) = m.name :=
    documentedName_accounts (t := account) (by simp)
  obtain ⟨n, hn, hadmitted, -⟩ :=
    resolve_admitted (t := account) step_account rfl typeOverride?_account hnames hm
  cases hn
  have hexcluded : noPassword.admits "password" = false := by decide
  refine ⟨step_account, hnames, m, hm, hexcluded, ?_⟩
  refine (hadmitted "password" ((hkeys _).mpr (.inl (by simp)))).resolve_left ?_
  rw [hexcluded]
  exact Bool.false_ne_true

end EndpointDocs.Schema

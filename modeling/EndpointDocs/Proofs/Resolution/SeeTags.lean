import EndpointDocs.Proofs.Catalog.Redoc
import EndpointDocs.Proofs.Resolution.Records

namespace EndpointDocs

open TypeText Noting

/-- The comment without its tags of a name. -/
def DocComment.withoutTags (d : DocComment) (name : String) : DocComment :=
  { d with tags := d.tags.filter (·.name ≠ name) }

/-- The comment of a type, without its `see` tags if it is the one called `name`. -/
def TypeDecl.docWithoutSee (name : String) (t : TypeDecl) : DocComment :=
  if t.name = name then t.doc.withoutTags "see" else t.doc

/-- The project without the `see` tags of the type called `name`. -/
def Project.withoutSee (p : Project) (name : String) : Project :=
  p.redoc (TypeDecl.docWithoutSee name)

/-- Something above `t` has a name of `u` but is not `u`: another type, or a supertype that means
another type or none. -/
inductive Catalog.Misread (c : Catalog) (t u : TypeDecl) : Prop
  | named {v : TypeDecl} (above : c.Above t v) (other : v ≠ u) (same : v.isNamed u.name = true)
  | written {v : TypeDecl} {s : String} (above : c.Above t v) (supertype : s ∈ v.supertypes)
      (other : c.find? s ≠ some u) (spelled : Hits (rawName u.name) (rawName s))

private theorem Catalog.above_or_misread {c : Catalog} {t u : TypeDecl}
    (h : c.inherits t u.name = true) : c.Above t u ∨ c.Misread t u := by
  obtain ⟨v, habove, hnames⟩ := leadsTo_of_inherits h
  rw [← or_assoc, ← isNamed_rawName] at hnames
  by_cases hv : v = u
  · exact .inl (hv ▸ habove)
  · rcases hnames with hnamed | ⟨s, hs, hhits⟩
    · exact .inr (.named habove hv (by simpa [TypeDecl.isNamed, rawName_rawName] using hnamed))
    · by_cases hfind : c.find? s = some u
      · exact .inl (habove.tail ⟨s, hs, hfind⟩)
      · exact .inr (.written habove hs hfind hhits)

namespace Schema

open Shape OrderedMap

variable {p : Project} {u : Usage} {docs : TypeDecl → DocComment} {name : String}
  {t : TypeDecl} {arguments : List String} {chain : Chain}

private theorem related?_redoc (reference : String) :
    related? (p.redoc docs) (t.redoc docs) reference =
      (related? p t reference).map (·.redoc docs) := by
  rw [related?, related?, Project.find?_redoc]
  cases p.catalog.find? reference with
  | none => rfl
  | some target =>
    simp only [Option.map_some, Option.filter_some, Project.inherits_redoc, TypeDecl.redoc_name]
    split <;> rfl

private theorem addedBy_redoc (resolve : String → Noting (Option Schema))
    (override : Option TypeOverride) (bindings : Bindings) :
    addedBy (p.redoc docs) u resolve override bindings = addedBy p u resolve override bindings := by
  funext m
  simp only [addedBy, Member.describe_redoc]

private theorem takenBy_redoc (resolve : String → Noting (Option Schema)) :
    takenBy (p.redoc docs) resolve name (t.redoc docs) = takenBy p resolve name t := by
  funext reference
  rw [takenBy, takenBy, related?_redoc]
  cases related? p t reference <;> rfl

private theorem memberEntries_redoc (resolve : String → Noting (Option Schema)) :
    memberEntries (p.redoc docs) u resolve name (t.redoc docs) arguments =
      memberEntries p u resolve name t arguments := by
  rw [memberEntries, Member.ofType_redoc, addedBy_redoc]
  rfl

private theorem memberTexts_redoc :
    memberTexts (p.redoc docs) name (t.redoc docs) arguments = memberTexts p name t arguments := by
  rw [memberTexts, Member.ofType_redoc]
  rfl

private theorem memberNames_redoc :
    memberNames (p.redoc docs) name (t.redoc docs) = memberNames p name t := by
  rw [memberNames, Member.ofType_redoc]
  rfl

/-- Where a type keeps its comment its properties are made alike. -/
theorem propertiesOf_redoc (hdoc : docs t = t.doc) (resolve : String → Noting (Option Schema)) :
    propertiesOf (p.redoc docs) u resolve name (t.redoc docs) arguments =
      propertiesOf p u resolve name t arguments := by
  have htexts : seeTexts (t.redoc docs) = seeTexts t := by
    rw [seeTexts, TypeDecl.redoc, hdoc, seeTexts]
  rw [propertiesOf_eq, propertiesOf_eq, htexts, takenBy_redoc, memberEntries_redoc]

private theorem openType_redoc (answer : Chain → String → Noting (Option Schema))
    (hdoc : chain.has t.name = false → docs t = t.doc) :
    openType answer (p.redoc docs) u chain name (t.redoc docs) arguments =
      openType answer p u chain name t arguments := by
  rw [openType, openType, TypeDecl.redoc_name]
  cases hc : chain.has t.name with
  | true => rw [if_pos rfl, if_pos rfl]
  | false => rw [propertiesOf_redoc (hdoc hc)]

/-- One step below types that may have other comments. -/
theorem resolveOnce_redoc {text : String} (answer : Chain → String → Noting (Option Schema))
    (hdocs : ∀ t : TypeDecl, chain.has t.name = false → docs t = t.doc) :
    resolveOnce answer (p.redoc docs) u chain text = resolveOnce answer p u chain text := by
  unfold resolveOnce
  rw [step_redoc]
  cases hstep : step p text with
  | settled s =>
    rcases step_settled hstep with rfl | ⟨d, rfl⟩ | ⟨d, values, _, rfl⟩ | ⟨t, _, rfl⟩
    · simp only [Step.redoc, ofShape]
    · simp only [Step.redoc, ofShape]
    · simp only [Step.redoc, ofShape]
    · simp only [Step.redoc, ofShape, openType_redoc answer (hdocs t)]
  | list items _ | map items _ | elements _ items => simp only [Step.redoc]

/-- Below a type its comment is not read, so it may have another one. -/
theorem resolve_redoc {c : Call} (hends : Call.Ends p c)
    (hdocs : ∀ t : TypeDecl, c.chain.has t.name = false → docs t = t.doc) :
    resolve (p.redoc docs) u c.chain c.text = resolve p u c.chain c.text := by
  induction hends with
  | @intro c _ ih =>
    have hnested : ∀ d ∈ c.nested p,
        resolve p u d.chain d.text = resolve (p.redoc docs) u d.chain d.text := by
      intro d hd
      refine (ih d hd fun t ht => hdocs t ?_).symm
      rcases nested_cases hd with ⟨next, _, rfl⟩ | ⟨s, _, _, _, reference, _, rfl⟩
      · exact ht
      · simp_all [Chain.has, Chain.push]
    rw [resolve_eq_resolveOnce, resolve_eq_resolveOnce, resolveOnce_redoc _ hdocs,
      resolveOnce_congr hnested]

private theorem alike_memberEntries {f g : String → Noting (Option Schema)}
    (hfg : ∀ text ∈ memberTexts p name t arguments, Alike (f text) (g text)) :
    Alike (memberEntries p u f name t arguments) (memberEntries p u g name t arguments) := by
  apply alike_mapM
  intro m hm
  unfold addedBy
  split
  · next hshown =>
    have htext : substitute (bind t.parameters arguments) m.typeText ∈
        memberTexts p name t arguments :=
      List.mem_map_of_mem (List.mem_filter.mpr ⟨hm, hshown⟩)
    refine (hfg _ htext).bind fun found => ?_
    cases found <;> exact alike_pure _
  · exact alike_pure _

/-- The members of a type are documented alike without its `see` tags. -/
theorem alike_withoutSee (hends : Call.Ends p ⟨chain, t.name⟩)
    (hstep : step p t.name = .settled (.members name t arguments))
    (hchain : chain.has t.name = false) :
    Alike (memberEntries p u (resolve p u (chain.push t.name)) name t arguments)
      (memberEntries (p.withoutSee t.name) u (resolve (p.withoutSee t.name) u (chain.push t.name))
        name (t.redoc (TypeDecl.docWithoutSee t.name)) arguments) := by
  rw [Project.withoutSee, memberEntries_redoc]
  obtain ⟨hbelow⟩ := hends
  have hdocs : ∀ s : TypeDecl, (chain.push t.name).has s.name = false →
      s.docWithoutSee t.name = s.doc := by
    intro s hs
    have hname : s.name ≠ t.name := by
      intro heq
      simp [heq, Chain.has, Chain.push] at hs
    exact if_neg hname
  apply alike_memberEntries
  intro text htext
  have hnested : ⟨chain.push t.name, text⟩ ∈ Call.nested p ⟨chain, t.name⟩ := by
    rw [nested_of_members (c := ⟨chain, t.name⟩) hstep hchain]
    exact List.mem_map_of_mem (List.mem_append_right _ htext)
  have hsame : resolve (p.redoc (TypeDecl.docWithoutSee t.name)) u (chain.push t.name) text =
      resolve p u (chain.push t.name) text :=
    resolve_redoc (c := ⟨chain.push t.name, text⟩) (hbelow _ hnested) hdocs
  rw [hsame]
  exact steady_resolve _ _

private theorem seeTexts_withoutSee (t : TypeDecl) :
    seeTexts (t.redoc (TypeDecl.docWithoutSee t.name)) = [] := by
  have htags : (t.doc.withoutTags "see").tagsNamed "see" = [] := by
    simp [DocComment.tagsNamed, DocComment.withoutTags]
  rw [seeTexts, TypeDecl.redoc, TypeDecl.docWithoutSee, if_pos rfl, htags, List.filterMap_nil]

theorem not_seenKey_self (hstep : step p t.name = .settled (.members name t arguments))
    (key : String) : ¬ SeenKey p u chain t t key := by
  rintro ⟨-, w, s, v, hs, hkey⟩
  have hopen : (chain.push t.name).has t.name = true := by simp [Chain.has, Chain.push]
  rw [resolve_eq_resolveOnce, resolveOnce, hstep] at hs
  simp only [ofShape, openType, hopen, if_true] at hs
  cases hs
  cases hkey

private theorem misread_of_mem_seenTypes {target : TypeDecl} (h : target ∈ seenTypes p t) :
    (p.catalog.Above target t ∨ p.catalog.Above t target) ∨
      (p.catalog.Misread target t ∨ p.catalog.Misread t target) := by
  obtain ⟨reference, -, hrelated⟩ := List.mem_filterMap.mp h
  rw [related?] at hrelated
  have hinherits := (Option.filter_eq_some_iff.mp hrelated).2
  rw [Bool.or_eq_true] at hinherits
  rcases hinherits with hdown | hup
  · exact (Catalog.above_or_misread hdown).imp .inl .inl
  · exact (Catalog.above_or_misread hup).imp .inr .inr

/-- The `see` tags of a type change none of the properties that it has without them. Every property
that they add is one of another type that a tag refers to, which is above or below the type, or has
something above it that is misread as the type, or the other way round. -/
theorem resolve_withoutSee {w v : List Warning} {found : Option Schema}
    (hstep : step p t.name = .settled (.members name t arguments))
    (hchain : chain.has t.name = false)
    (h : resolve p u chain t.name w = some (found, v)) (w' : List Warning) :
    ∃ m m' v', found = some (withProperties m) ∧
      resolve (p.withoutSee t.name) u chain t.name w' = some (some (withProperties m'), v') ∧
      (∀ k s, m'.get? k = some s → m.get? k = some s) ∧
      ∀ k ∈ m.keys, k ∉ m'.keys → ∃ target, SeenKey p u chain t target k ∧ target ≠ t ∧
        ((p.catalog.Above target t ∨ p.catalog.Above t target) ∨
          (p.catalog.Misread target t ∨ p.catalog.Misread t target)) := by
  obtain ⟨taken, own, w₁, htaken, hown, rfl⟩ := (resolve_members hstep hchain).mp h
  have halike := alike_withoutSee (u := u) (ends_of_resolve h) hstep hchain w₁ w'
  rw [hown, Option.map_some, eq_comm, Option.map_eq_some_iff] at halike
  obtain ⟨⟨own', v'⟩, hown', hsame⟩ := halike
  obtain rfl : own' = own := hsame
  have hstep' : step (p.withoutSee t.name) t.name =
      .settled (.members name (t.redoc (TypeDecl.docWithoutSee t.name)) arguments) := by
    rw [Project.withoutSee, step_redoc, hstep]
    rfl
  have hplain : resolve (p.withoutSee t.name) u chain t.name w' =
      some (some (withProperties (ofEntries own'.flatten)), v') := by
    refine (resolve_members hstep' hchain).mpr ⟨[], own', w', ?_, hown', rfl⟩
    rw [seeTexts_withoutSee]
    rfl
  refine ⟨_, _, v', rfl, hplain, fun k s hs => ?_, fun k hk hnew => ?_⟩
  · rw [ofEntries, get?_putAll, get?, List.lookup_nil, Option.or_none] at hs ⊢
    rw [List.reverse_append, List.lookup_append, hs, Option.some_or]
  · rw [ofEntries, mem_keys_putAll] at hk hnew
    rw [List.map_append, List.mem_append] at hk
    have hadded : k ∈ taken.flatten.map Prod.fst :=
      (hk.resolve_left fun hnone => hnew (.inl hnone)).resolve_right fun hown => hnew (.inr hown)
    obtain ⟨target, hseen⟩ := (mem_taken_iff htaken).mp hadded
    refine ⟨target, hseen, ?_, misread_of_mem_seenTypes hseen.1⟩
    rintro rfl
    exact not_seenKey_self hstep k hseen

/-- Refers to another type that has its name as its short name. -/
def user : TypeDecl :=
  { name := "User", shortName := "User", kind := .record
    fields := [{ name := "id", typeText := "int" }]
    doc := { tags := [⟨"see", "demo.User"⟩] } }

def demoUser : TypeDecl :=
  { name := "demo.User", shortName := "User", kind := .record
    fields := [{ name := "secret", typeText := "String" }] }

def users : Project :=
  Project.of (({} : Catalog).insertAll [user, demoUser]) {}

private theorem isRecord_users (ht : t ∈ [user, demoUser]) : users.IsRecord t := by
  have hcatalog : users.catalog = ({} : Catalog).insertAll [user, demoUser] := rfl
  have hfound : ∀ v ∈ [user, demoUser], users.catalog.find? v.name = some v := by
    rw [hcatalog]
    decide
  exact Project.isRecord_of_closed hfound (by decide) (by decide) (by decide) ht

private theorem members_users (ht : t ∈ [user, demoUser]) :
    Member.ofType users t = t.fields.filterMap Member.ofField := by
  apply (isRecord_users ht).own_members rfl
  rcases List.mem_pair.mp ht with rfl | rfl <;> rfl

private theorem hasPlainMembers_users (ht : t ∈ [user, demoUser]) :
    HasPlainMembers users t.name t [] := by
  apply hasPlainMembers_of_scalars
  rw [memberTexts, members_users ht]
  rcases List.mem_pair.mp ht with rfl | rfl <;> decide

private theorem memberNames_users :
    memberNames users "User" user = ["id"] ∧
      memberNames users "demo.User" demoUser = ["secret"] := by
  rw [memberNames, memberNames, members_users (by simp), members_users (by simp)]
  constructor <;> decide

private theorem step_user : step users "User" = .settled (.members "User" user []) :=
  (isRecord_users (t := user) (by simp)).step

private theorem related?_user :
    seeTexts user = ["demo.User"] ∧ related? users user "demo.User" = some demoUser := by
  have hinherits : users.catalog.inherits demoUser user.name = true := by
    rw [Catalog.inherits_of_supertypes_eq_nil _ rfl]
    decide
  have hfind : users.catalog.find? "demo.User" = some demoUser :=
    (isRecord_users (t := demoUser) (by simp)).found
  refine ⟨by decide, ?_⟩
  rw [related?, hfind, Option.filter_some, hinherits]
  rfl

private theorem seenTypes_user : seenTypes users user = [demoUser] := by
  obtain ⟨htexts, hrelated⟩ := related?_user
  rw [seeTexts] at htexts
  rw [seenTypes, htexts, List.filterMap_cons, hrelated, List.filterMap_nil]

private theorem resolve_user (u : Usage) (w : List Warning) :
    ∃ m, resolve users u [] "User" w = some (some (withProperties m), w) ∧
      ∀ k, k ∈ m.keys ↔ k = "secret" ∨ k = "id" := by
  obtain ⟨m, hm, hkeys⟩ := resolve_of_see (isRecord_users (t := user) (by simp))
    (isRecord_users (t := demoUser) (by simp)) (by decide) related?_user.1 related?_user.2 rfl
    (fun s hs => hasPlainMembers_users hs) u w
  have hnames : memberNames users user.name user = ["id"] ∧
      memberNames users demoUser.name demoUser = ["secret"] := memberNames_users
  refine ⟨m, hm, fun k => ?_⟩
  rw [hkeys, hnames.1, hnames.2, List.mem_singleton, List.mem_singleton]

private theorem resolve_user_withoutSee (u : Usage) (w : List Warning) :
    ∃ m, resolve (users.withoutSee "User") u [] "User" w = some (some (withProperties m), w) ∧
      ∀ k, k ∈ m.keys ↔ k = "id" := by
  have hstep : step (users.withoutSee "User") "User" =
      .settled (.members "User" (user.redoc (TypeDecl.docWithoutSee "User")) []) := by
    rw [Project.withoutSee, step_redoc, step_user]
    rfl
  have hplain : HasPlainMembers (users.withoutSee "User") "User"
      (user.redoc (TypeDecl.docWithoutSee "User")) [] := by
    rw [HasPlainMembers, Project.withoutSee, memberTexts_redoc]
    intro text htext
    obtain ⟨d, hd⟩ := hasPlainMembers_users (t := user) (by simp) text htext
    refine ⟨d, ?_⟩
    rw [step_redoc, hd]
    rfl
  have hnone : seeTexts (user.redoc (TypeDecl.docWithoutSee "User")) = [] :=
    seeTexts_withoutSee user
  have htaken : (seeTexts (user.redoc (TypeDecl.docWithoutSee "User"))).mapM
      (takenBy (users.withoutSee "User") (resolve (users.withoutSee "User") u ["User"]) "User"
        (user.redoc (TypeDecl.docWithoutSee "User"))) w = some ([], w) := by
    rw [hnone]
    rfl
  obtain ⟨m, hm, hkeys⟩ := resolve_of_plain_members hstep rfl htaken hplain
  rw [Project.withoutSee, memberNames_redoc, memberNames_users.1] at hkeys
  exact ⟨m, hm, by simpa using hkeys⟩

private theorem not_above_users :
    ¬ users.catalog.Above demoUser user ∧ ¬ users.catalog.Above user demoUser := by
  have hclosed : ∀ t ∈ [user, demoUser], ∀ v ∈ [t], ∀ s ∈ v.supertypes,
      ∀ w, users.catalog.find? s = some w → w ∈ [t] := by
    have hnone : ∀ t ∈ [user, demoUser], t.supertypes = [] := by decide
    intro t ht v hv s hs
    rw [List.mem_singleton.mp hv, hnone t ht] at hs
    cases hs
  have hdistinct : user ∉ [demoUser] ∧ demoUser ∉ [user] := by decide
  constructor
  · exact fun h => hdistinct.1 (h.mem (hclosed demoUser (by simp)) (by simp))
  · exact fun h => hdistinct.2 (h.mem (hclosed user (by simp)) (by simp))

/-- What the tags add need not come from a type that is above or below. -/
theorem see_adds_secret :
    step users user.name = .settled (.members "User" user []) ∧
    ∃ m m', resolve users ⟨.response, .body⟩ [] "User" [] = some (some (withProperties m), []) ∧
      resolve (users.withoutSee "User") ⟨.response, .body⟩ [] "User" [] =
        some (some (withProperties m'), []) ∧
      "secret" ∈ m.keys ∧ "secret" ∉ m'.keys ∧
      ∀ target ∈ seenTypes users user,
        ¬ users.catalog.Above target user ∧ ¬ users.catalog.Above user target := by
  obtain ⟨m, hm, hkeys⟩ := resolve_user ⟨.response, .body⟩ []
  obtain ⟨m', hm', hkeys'⟩ := resolve_user_withoutSee ⟨.response, .body⟩ []
  refine ⟨step_user, m, m', hm, hm', (hkeys _).mpr (.inl rfl), ?_, ?_⟩
  · rw [hkeys']
    decide
  · rw [seenTypes_user, List.forall_mem_singleton]
    exact not_above_users

/-- The identifier stays as it is, and the secret comes from a type that is misread. -/
theorem resolve_withoutSee_user :
    step users user.name = .settled (.members "User" user []) ∧
    ∃ m m', resolve users ⟨.response, .body⟩ [] "User" [] = some (some (withProperties m), []) ∧
      resolve (users.withoutSee "User") ⟨.response, .body⟩ [] "User" [] =
        some (some (withProperties m'), []) ∧
      ("id" ∈ m'.keys ∧ ∀ s, m'.get? "id" = some s → m.get? "id" = some s) ∧
      "secret" ∈ m.keys ∧ "secret" ∉ m'.keys ∧
      ∃ target, SeenKey users ⟨.response, .body⟩ [] user target "secret" ∧
        (users.catalog.Misread target user ∨ users.catalog.Misread user target) := by
  obtain ⟨m, hm, hkeys⟩ := resolve_user ⟨.response, .body⟩ []
  obtain ⟨m', hm', hkeys'⟩ := resolve_user_withoutSee ⟨.response, .body⟩ []
  obtain ⟨n, n', v', hn, hn', hkept, hadded⟩ := resolve_withoutSee (t := user) step_user rfl hm []
  cases hn
  cases hn'.symm.trans hm'
  have hsecret : "secret" ∈ m.keys := (hkeys _).mpr (.inl rfl)
  have hnew : "secret" ∉ m'.keys := by
    rw [hkeys']
    decide
  refine ⟨step_user, m, m', hm, hm', ⟨(hkeys' _).mpr rfl, hkept "id"⟩, hsecret, hnew, ?_⟩
  obtain ⟨target, hseen, -, hkin⟩ := hadded "secret" hsecret hnew
  have htarget : target = demoUser := by
    have htypes := hseen.1
    rw [seenTypes_user] at htypes
    exact List.mem_singleton.mp htypes
  subst htarget
  refine ⟨demoUser, hseen, hkin.resolve_left ?_⟩
  rintro (habove | hbelow)
  · exact not_above_users.1 habove
  · exact not_above_users.2 hbelow

end Schema

end EndpointDocs

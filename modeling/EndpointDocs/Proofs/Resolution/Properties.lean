import EndpointDocs.Proofs.Member.Described
import EndpointDocs.Proofs.OrderedMap
import EndpointDocs.Proofs.Resolution.Termination
import EndpointDocs.Proofs.Resolution.Warnings
import EndpointDocs.Proofs.Schema.Overlaid

namespace EndpointDocs

namespace Member

/-- The name under which a member is documented: the corrected one, or else the written one. -/
def documentedName (m : Member) (override : Option TypeOverride) : String :=
  let written := Remarks.memberName m.annotations m.name
  match override.bind fun o => (o.fields.get? m.name).or (o.fields.get? written) with
  | none => written
  | some o => (Text.contentOf? o.name).getD written

/-- A member keeps its name if no annotation and no correction gives it another one. -/
theorem documentedName_eq {m : Member} {override : Option TypeOverride}
    (hwritten : (Annotations.find? m.annotations "JsonProperty").bind (·.value? "value") = none)
    (hcorrected : ∀ o ∈ override, ∀ f ∈ o.fields.get? m.name, Text.contentOf? f.name = none) :
    m.documentedName override = m.name := by
  have hname : Remarks.memberName m.annotations m.name = m.name := by
    rw [Remarks.memberName, hwritten, Option.getD_none]
  simp only [documentedName, hname, Option.or_self]
  cases hfield : override.bind fun o => o.fields.get? m.name with
  | none => rfl
  | some f =>
    obtain ⟨o, ho, hf⟩ := Option.bind_eq_some_iff.mp hfield
    exact congrArg (·.getD m.name) (hcorrected o ho f hf)

theorem name_correct_describe (m : Member) (override : Option TypeOverride) (p : Project)
    (u : Usage) (text : String) (s : Schema) :
    (m.correct override (m.describe p u text s)).name = m.documentedName override := by
  have hwritten : (m.describe p u text s).name = Remarks.memberName m.annotations m.name :=
    describe_name m p u text s
  simp only [correct, documentedName, hwritten]
  cases override.bind fun o =>
      (o.fields.get? m.name).or (o.fields.get? (Remarks.memberName m.annotations m.name)) with
  | none => exact hwritten
  | some o => exact (Schema.overlay_name _ o).trans (congrArg _ hwritten)

end Member

namespace Schema

open Noting OrderedMap

variable {p : Project} {u : Usage} {resolve : String → Noting (Option Schema)} {name : String}
  {t target : TypeDecl} {arguments : List String} {chain : Chain}

/-- What the `see` tags of a type say. -/
def seeTexts (t : TypeDecl) : List String :=
  (t.doc.tagsNamed "see").filterMap fun tag => Text.content? tag.value

/-- The entries that a `see` tag takes over. -/
def takenBy (p : Project) (resolve : String → Noting (Option Schema)) (name : String)
    (t : TypeDecl) (reference : String) : Noting (List (String × Schema)) :=
  match related? p t reference with
  | none => do
    Noting.warn "Parse skipped" (name ++ " @see " ++ reference)
    return []
  | some target => do
    let found ← resolve target.name
    return (found.bind (·.properties)).getD []

/-- The entry of a member, if it has one. -/
def addedBy (p : Project) (u : Usage) (resolve : String → Noting (Option Schema))
    (override : Option TypeOverride) (bindings : TypeText.Bindings) (m : Member) :
    Noting (List (String × Schema)) := do
  if m.isShown override then
    let text := TypeText.substitute bindings m.typeText
    match ← resolve text with
    | none => return []
    | some s =>
      let s := m.correct override (m.describe p u text s)
      return [(s.name, s)]
  else return []

/-- All entries of the members of a type. -/
def memberEntries (p : Project) (u : Usage) (resolve : String → Noting (Option Schema))
    (name : String) (t : TypeDecl) (arguments : List String) :
    Noting (List (List (String × Schema))) :=
  (Member.ofType p t).mapM (addedBy p u resolve (p.settings.typeOverride? name (some t))
    (TypeText.bind t.parameters arguments))

/-- Putting in entries as they come is putting in all of them. -/
theorem foldlM_putAll {α : Type} (h : α → Noting (List (String × Schema))) (l : List α)
    (m : OrderedMap Schema) :
    (l.foldlM (fun m a => do return m.putAll (← h a)) m : Noting (OrderedMap Schema)) = do
      return m.putAll (← l.mapM h).flatten := by
  induction l generalizing m with
  | nil => rfl
  | cons a l ih =>
    simp only [List.foldlM_cons, List.mapM_cons, bind_assoc, pure_bind, ih, List.flatten_cons,
      putAll_append]

theorem seen_eq : seen p resolve name t = do
    return ofEntries (← (seeTexts t).mapM (takenBy p resolve name t)).flatten := by
  unfold ofEntries
  rw [← foldlM_putAll]
  apply foldlM_congr
  intro properties reference _
  rw [takenBy]
  cases related? p t reference with
  | none => rfl
  | some target =>
    simp only [bind_assoc, pure_bind]

theorem addMember_eq (override : Option TypeOverride) (bindings : TypeText.Bindings)
    (properties : OrderedMap Schema) (m : Member) :
    addMember p u resolve override bindings properties m = do
      return properties.putAll (← addedBy p u resolve override bindings m) := by
  unfold addMember addedBy
  split
  · simp only [bind_assoc]
    congr 1
    funext found
    cases found <;> rfl
  · rfl

theorem propertiesOf_eq : propertiesOf p u resolve name t arguments = do
    let taken ← (seeTexts t).mapM (takenBy p resolve name t)
    let own ← memberEntries p u resolve name t arguments
    return ofEntries (taken.flatten ++ own.flatten) := by
  unfold propertiesOf
  simp only [seen_eq, bind_assoc, pure_bind]
  congr 1
  funext taken
  rw [foldlM_congr fun properties m _ => addMember_eq _ _ properties m]
  simp only [foldlM_putAll, ofEntries, putAll_append]
  rfl

/-- Where the members of a type are documented, its schema is an object of the entries that its
`see` tags take over and then those of its members. -/
theorem resolve_members {text : String} {w v : List Warning} {found : Option Schema}
    (hstep : Shape.step p text = .settled (.members name t arguments))
    (hchain : chain.has t.name = false) :
    Schema.resolve p u chain text w = some (found, v) ↔ ∃ taken own w',
      (seeTexts t).mapM (takenBy p (Schema.resolve p u (chain.push t.name)) name t) w =
        some (taken, w') ∧
      memberEntries p u (Schema.resolve p u (chain.push t.name)) name t arguments w' =
        some (own, v) ∧
      found = some (withProperties (ofEntries (taken.flatten ++ own.flatten))) := by
  rw [resolve_eq_resolveOnce, resolveOnce, hstep]
  constructor
  · intro h
    obtain ⟨s, w₁, hs, hfound⟩ := bind_eq_some.mp h
    cases hfound
    rw [openType, hchain] at hs
    obtain ⟨m, w₂, hm, hobject⟩ := map_eq_some.mp hs
    cases hobject
    rw [propertiesOf_eq] at hm
    obtain ⟨taken, w', htaken, hm⟩ := bind_eq_some.mp hm
    obtain ⟨own, w₃, hown, hm⟩ := bind_eq_some.mp hm
    cases hm
    exact ⟨taken, own, w', htaken, hown, rfl⟩
  · rintro ⟨taken, own, w', htaken, hown, rfl⟩
    refine bind_eq_some.mpr ⟨_, v, ?_, rfl⟩
    rw [openType, hchain]
    refine map_eq_some.mpr ⟨_, v, ?_, rfl⟩
    rw [propertiesOf_eq]
    exact bind_eq_some.mpr ⟨taken, w', htaken, bind_eq_some.mpr ⟨own, v, hown, rfl⟩⟩

/-- `target` is a type that a `see` tag of `t` refers to, and below `t` it has a property `key`. -/
def SeenKey (p : Project) (u : Usage) (chain : Chain) (t target : TypeDecl) (key : String) : Prop :=
  target ∈ seenTypes p t ∧
    ∃ w s v, Schema.resolve p u (chain.push t.name) target.name w = some (some s, v) ∧
      key ∈ OrderedMap.keys (s.properties.getD [])

/-- The keys that are taken over are those of the types that the `see` tags refer to. -/
theorem mem_taken_iff {taken : List (List (String × Schema))} {w v : List Warning}
    (h : (seeTexts t).mapM (takenBy p (Schema.resolve p u (chain.push t.name)) name t) w =
      some (taken, v)) {key : String} :
    key ∈ taken.flatten.map Prod.fst ↔ ∃ target, SeenKey p u chain t target key := by
  obtain ⟨hresults, htexts⟩ := mapM_eq_some h
  constructor
  · intro hkey
    obtain ⟨e, he, rfl⟩ := List.mem_map.mp hkey
    obtain ⟨entries, hentries, he⟩ := List.mem_flatten.mp he
    obtain ⟨reference, hreference, w₁, w₂, hrun⟩ := hresults entries hentries
    rw [takenBy] at hrun
    cases htarget : related? p t reference with
    | none =>
      rw [htarget] at hrun
      cases hrun
      cases he
    | some target =>
      rw [htarget] at hrun
      obtain ⟨found, w₃, hfound, hrun⟩ := bind_eq_some.mp hrun
      cases hrun
      cases found with
      | none => cases he
      | some s =>
        refine ⟨target, ?_, w₁, s, w₂, hfound, List.mem_map_of_mem he⟩
        exact List.mem_filterMap.mpr ⟨reference, hreference, htarget⟩
  · rintro ⟨target, htarget, w₁, s, w₂, hs, hkey⟩
    obtain ⟨reference, hreference, hrelated⟩ := List.mem_filterMap.mp htarget
    obtain ⟨entries, hentries, w₃, w₄, hrun⟩ := htexts reference hreference
    rw [takenBy, hrelated] at hrun
    obtain ⟨found, w₅, hfound, hrun⟩ := bind_eq_some.mp hrun
    cases hrun
    have hsame := steady_resolve (p := p) (u := u) (chain.push t.name) target.name w₃ w₁
    rw [hfound, hs] at hsame
    cases hsame
    obtain ⟨e, he, rfl⟩ := List.mem_map.mp hkey
    exact List.mem_map_of_mem (List.mem_flatten.mpr ⟨_, hentries, he⟩)

/-- The names under which the members of a type are documented. -/
def memberNames (p : Project) (name : String) (t : TypeDecl) : List String :=
  ((Member.ofType p t).filter (·.isShown (p.settings.typeOverride? name (some t)))).map
    (·.documentedName (p.settings.typeOverride? name (some t)))

/-- All entries of members are under their names. -/
theorem mem_memberNames {own : List (List (String × Schema))} {w v : List Warning}
    (h : memberEntries p u resolve name t arguments w = some (own, v)) {key : String}
    (hkey : key ∈ own.flatten.map Prod.fst) : key ∈ memberNames p name t := by
  obtain ⟨e, he, rfl⟩ := List.mem_map.mp hkey
  obtain ⟨entries, hentries, he⟩ := List.mem_flatten.mp he
  obtain ⟨m, hm, w₁, w₂, hrun⟩ := (mapM_eq_some h).1 entries hentries
  rw [addedBy] at hrun
  split at hrun
  · next hshown =>
    obtain ⟨found, w₃, -, hrun⟩ := bind_eq_some.mp hrun
    cases found with
    | none =>
      cases hrun
      cases he
    | some s =>
      cases hrun
      obtain rfl := List.mem_singleton.mp he
      exact List.mem_map.mpr ⟨m, List.mem_filter.mpr ⟨hm, hshown⟩,
        (m.name_correct_describe _ p u _ s).symm⟩
  · cases hrun
    cases he

end Schema

end EndpointDocs

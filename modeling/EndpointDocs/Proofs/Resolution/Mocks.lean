import EndpointDocs.Proofs.Resolution.Records

namespace EndpointDocs

namespace Mock

variable {s d : Schema}

/-- The types that suggest no mock. -/
def IsSilent (t : DataType) : Prop :=
  t = .file ∨ t = .array ∨ t = .object

/-- The values from which a mock picks one. -/
def pick (values : List KnownValue) : String :=
  "@pick([" ++ Text.join "," (values.map fun v => "\"" ++ v.value ++ "\"") ++ "])"

private theorem byType_string (h : s.dataType = .string) : byType s =
    if s.dateFormat.isSome then some "@datetime"
    else if s.values.getD [] = [] then some "@string" else some (pick (s.values.getD [])) := by
  rw [byType, h]
  simp only
  split
  · rfl
  · cases s.values.getD [] <;> rfl

theorem byType_eq_none_iff : byType s = none ↔ IsSilent s.dataType := by
  cases h : s.dataType with
  | string =>
    rw [byType_string h]
    split
    · simp [IsSilent]
    · split <;> simp [IsSilent]
  | integer | number | boolean | array | object | file => simp [byType, IsSilent, h]

/-- The type that a mock was suggested by, told by its second character. -/
def typeOf (mock : String) : DataType :=
  match mock.toList[1]? with
  | some 'b' => .boolean
  | some 'i' => .integer
  | some 'f' => .number
  | _ => .string

private theorem typeOf_of_byType {mock : String} (h : byType s = some mock) :
    typeOf mock = s.dataType := by
  cases ht : s.dataType with
  | string =>
    rw [byType_string ht] at h
    split at h
    · cases h
      rfl
    · split at h
      · cases h
        rfl
      · cases h
        simp [typeOf, pick]
  | integer | number | boolean =>
    simp only [byType, ht] at h
    cases h
    rfl
  | array | object | file =>
    simp only [byType, ht] at h
    cases h

theorem byType_eq_datetime_iff (h : s.dataType = .string) :
    byType s = some "@datetime" ↔ s.dateFormat.isSome = true := by
  have hpick (values : List KnownValue) : pick values ≠ "@datetime" := fun heq => by
    have hsecond := congrArg (fun mock : String => mock.toList[1]?) heq
    simp [pick] at hsecond
  rw [byType_string h]
  split
  · simp [*]
  · split <;> simp [*]

/-- With the same values, two properties have the same mock by type if they have the same type and,
as texts, both have a date format or none of them has one. Types without mocks are all alike. -/
theorem byType_eq_iff (hvalues : s.values = d.values) : byType s = byType d ↔
    (IsSilent s.dataType ∧ IsSilent d.dataType) ∨
      s.dataType = d.dataType ∧
        (d.dataType = .string → s.dateFormat.isSome = d.dateFormat.isSome) := by
  constructor
  · intro h
    cases hd : byType d with
    | none => exact .inl ⟨byType_eq_none_iff.mp (h.trans hd), byType_eq_none_iff.mp hd⟩
    | some mock =>
      have htype : s.dataType = d.dataType :=
        (typeOf_of_byType (h.trans hd)).symm.trans (typeOf_of_byType hd)
      refine .inr ⟨htype, fun hstring => ?_⟩
      rw [Bool.eq_iff_iff, ← byType_eq_datetime_iff hstring,
        ← byType_eq_datetime_iff (htype.trans hstring), h]
  · rintro (⟨hs, hd⟩ | ⟨htype, hdate⟩)
    · rw [byType_eq_none_iff.mpr hs, byType_eq_none_iff.mpr hd]
    · cases hd : d.dataType with
      | string =>
        rw [byType_string (htype.trans hd), byType_string hd, hdate hd, hvalues]
      | integer | number | boolean | array | object | file => simp [byType, htype, hd]

/-- A mock is chosen by what choosing it does not change. -/
theorem withMock_mock (p : Project) (hs : s.mock = none) (said : Option String) :
    (p.withMock s said).mock =
      choose p.settings.mocksEnabled p.mocks (p.withMock s said) said := by
  change s.mock.or (choose p.settings.mocksEnabled p.mocks s said) = choose _ _ s said
  rw [hs, Option.none_or]

private theorem choose_of_unsaid {rules : List Mock} (hrules : ∀ r ∈ rules, r.fits s = false) :
    choose true rules s none = byType s := by
  have hnone : rules.find? (·.fits s) = none :=
    List.find?_eq_none.mpr fun r hr => by simp [hrules r hr]
  simp [choose, hnone, Text.contentOf?]

end Mock

namespace Member

variable {m : Member} {p : Project} {u : Usage} {override : Option TypeOverride} {text : String}
  {s d : Schema}

/-- The correction of the field that a member is, if it has one. -/
def correction? (m : Member) (override : Option TypeOverride) (written : String) :
    Option FieldOverride :=
  override.bind fun o => (o.fields.get? m.name).or (o.fields.get? written)

theorem correct_eq (m : Member) (override : Option TypeOverride) (s : Schema) :
    m.correct override s = ((m.correction? override s.name).map s.overlay).getD s := by
  unfold correct correction?
  cases override.bind fun o => (o.fields.get? m.name).or (o.fields.get? s.name) <;> rfl

private theorem describe_mock (hs : s.mock = none) : (m.describe p u text s).mock =
    Mock.choose p.settings.mocksEnabled p.mocks (m.describe p u text s) (m.doc.tag? "mock") := by
  unfold describe
  apply Mock.withMock_mock
  rw [Schema.stampDate_eq]
  exact hs

private theorem correct_values (m : Member) (override : Option TypeOverride) (s : Schema) :
    (m.correct override s).values = s.values := by
  rw [correct_eq]
  cases m.correction? override s.name with
  | none => rfl
  | some o => exact s.overlay_values o

private theorem correct_mock
    (h : ∀ o ∈ m.correction? override s.name, Text.contentOf? o.mock = none) :
    (m.correct override s).mock = s.mock := by
  rw [correct_eq]
  cases ho : m.correction? override s.name with
  | none => rfl
  | some o =>
    rw [Option.map_some, Option.getD_some, s.overlay_mock, correctText, h o ho, Option.none_or]

end Member

namespace Schema

open Shape Noting OrderedMap

variable {p : Project} {u : Usage} {name : String} {t : TypeDecl} {arguments : List String}
  {chain : Chain} {m : Member} {d s : Schema}

theorem resolve_unmocked (p : Project) (u : Usage) (chain : Chain) (text : String) :
    Yields (resolve p u chain text) fun found => ∀ s, found = some s → s.mock = none := by
  have hobject : ∀ s, some object = some s → s.mock = none := fun s hs => by
    cases hs
    rfl
  rw [resolve_eq_resolveOnce, resolveOnce]
  cases hstep : step p text with
  | settled shape =>
    rcases step_settled hstep with rfl | ⟨d, rfl⟩ | ⟨d, values, _, rfl⟩ | ⟨t, _, rfl⟩
    · exact yields_pure fun s hs => by cases hs
    · refine yields_pure fun s hs => ?_
      cases hs
      cases d <;> rfl
    · refine yields_pure fun s hs => ?_
      cases hs
      rfl
    · have hopen (t : TypeDecl) (name : String) (arguments : List String) :
          Yields (openType (resolve p u) p u chain name t arguments) fun s => s.mock = none := by
        unfold openType
        split
        · exact yields_pure rfl
        · exact (yields_true _).map fun _ _ => rfl
      refine (hopen _ _ _).bind fun s hs => yields_pure fun s' hs' => ?_
      cases hs'
      exact hs
  | list items _ | elements _ items =>
    refine (yields_true _).bind fun found _ => yields_pure fun s hs => ?_
    cases hs
    rfl
  | map value _ =>
    refine (yields_true _).bind fun found _ => yields_pure fun s hs => ?_
    cases hs
    cases found <;> rfl

/-- The member `m` of `t` is documented by `s`: the schema of its type, described as `d` and
corrected. -/
structure Documents (p : Project) (u : Usage) (chain : Chain) (name : String) (t : TypeDecl)
    (arguments : List String) (m : Member) (d s : Schema) : Prop where
  member : m ∈ Member.ofType p t
  shown : m.isShown (p.settings.typeOverride? name (some t)) = true
  described : ∃ found,
    (resolve p u (chain.push t.name)
      (TypeText.substitute (TypeText.bind t.parameters arguments) m.typeText)).given? =
        some (some found) ∧
    d = m.describe p u (TypeText.substitute (TypeText.bind t.parameters arguments) m.typeText) found
  corrected : s = m.correct (p.settings.typeOverride? name (some t)) d

private theorem Documents.mem_addedBy (h : Documents p u chain name t arguments m d s)
    {entries : List (String × Schema)} {w v : List Warning}
    (hrun : addedBy p u (resolve p u (chain.push t.name))
      (p.settings.typeOverride? name (some t)) (TypeText.bind t.parameters arguments) m w =
        some (entries, v)) : (s.name, s) ∈ entries := by
  obtain ⟨found, hfound, rfl⟩ := h.described
  rw [addedBy, if_pos h.shown] at hrun
  obtain ⟨found', w', hfound', hrun⟩ := bind_eq_some.mp hrun
  rw [given?_eq_some (steady_resolve _ _) hfound'] at hfound
  cases hfound
  cases hrun
  rw [← h.corrected]
  exact List.mem_singleton_self _

private theorem documents_of_addedBy (hm : m ∈ Member.ofType p t) {entries : List (String × Schema)}
    {w v : List Warning}
    (hrun : addedBy p u (resolve p u (chain.push t.name))
      (p.settings.typeOverride? name (some t)) (TypeText.bind t.parameters arguments) m w =
        some (entries, v)) {e : String × Schema} (he : e ∈ entries) :
    e.1 = e.2.name ∧ ∃ d, Documents p u chain name t arguments m d e.2 := by
  rw [addedBy] at hrun
  split at hrun
  · next hshown =>
    obtain ⟨found, w', hfound, hrun⟩ := bind_eq_some.mp hrun
    cases found with
    | none =>
      cases hrun
      cases he
    | some found =>
      cases hrun
      obtain rfl := List.mem_singleton.mp he
      have hgiven := given?_eq_some (steady_resolve _ _) hfound
      exact ⟨rfl, _, hm, hshown, ⟨found, hgiven, rfl⟩, rfl⟩
  · cases hrun
    cases he

/-- Under the name of a member stands what documents a member. -/
theorem exists_documented {text : String} {w v : List Warning} {found : Option Schema}
    (hstep : step p text = .settled (.members name t arguments))
    (hchain : chain.has t.name = false) (h : resolve p u chain text w = some (found, v)) :
    ∃ properties, found = some (withProperties properties) ∧
      ∀ m d s, Documents p u chain name t arguments m d s →
        ∃ m' d' s', Documents p u chain name t arguments m' d' s' ∧ s'.name = s.name ∧
          OrderedMap.get? properties s.name = some s' := by
  obtain ⟨taken, own, w', htaken, hown, rfl⟩ := (resolve_members hstep hchain).mp h
  obtain ⟨hresults, hmembers⟩ := mapM_eq_some hown
  refine ⟨_, rfl, fun m d s hs => ?_⟩
  obtain ⟨entries, hentries, w₁, w₂, hrun⟩ := hmembers m hs.member
  have hkey : s.name ∈ keys own.flatten.reverse := by
    have hmem := List.mem_flatten.mpr ⟨entries, hentries, hs.mem_addedBy hrun⟩
    exact List.mem_map_of_mem (f := Prod.fst) (List.mem_reverse.mpr hmem)
  obtain ⟨s', hs'⟩ := Option.ne_none_iff_exists'.mp (get?_ne_none hkey)
  have hmem : (s.name, s') ∈ own.flatten := List.mem_reverse.mp (mem_of_get? hs')
  obtain ⟨entries', hentries', he⟩ := List.mem_flatten.mp hmem
  obtain ⟨m', hm', w₃, w₄, hrun'⟩ := hresults entries' hentries'
  obtain ⟨hname, d', hdocuments⟩ := documents_of_addedBy hm' hrun' he
  refine ⟨m', d', s', hdocuments, hname.symm, ?_⟩
  rw [ofEntries, putAll_append, get?_putAll]
  exact congrArg (Option.or · _) hs'

/-- What a member is described as has the mock that is chosen for it. -/
theorem Documents.mock_described (h : Documents p u chain name t arguments m d s) :
    d.mock = Mock.choose p.settings.mocksEnabled p.mocks d (m.doc.tag? "mock") := by
  obtain ⟨found, hfound, rfl⟩ := h.described
  obtain ⟨⟨_, v⟩, hrun, rfl⟩ := Option.map_eq_some_iff.mp hfound
  exact Member.describe_mock (resolve_unmocked p u _ _ hrun found rfl)

/-- Where mocks are enabled, the mock of a property is the one that its type suggests before the
correction of the field is laid over it, unless the comment of the member or the correction gives
another one or a rule fits. So it is the one that suits the property as documented exactly if the
correction leaves the type, or gives another type without mocks to one without mocks, and does not
give a text its date format. -/
theorem resolve_mocks {text : String} {w v : List Warning} {found : Option Schema}
    (henabled : p.settings.mocksEnabled = true)
    (hstep : step p text = .settled (.members name t arguments))
    (hchain : chain.has t.name = false) (h : resolve p u chain text w = some (found, v)) :
    ∃ properties, found = some (withProperties properties) ∧
      ∀ m d s, Documents p u chain name t arguments m d s →
        (∃ m' d' s', Documents p u chain name t arguments m' d' s' ∧ s'.name = s.name ∧
          OrderedMap.get? properties s.name = some s') ∧
        (m.doc.tag? "mock" = none →
          (∀ o ∈ m.correction? (p.settings.typeOverride? name (some t)) d.name,
            Text.contentOf? o.mock = none) →
          (∀ r ∈ p.mocks, r.fits d = false) →
          s.mock = Mock.byType d ∧
            (s.mock = Mock.byType s ↔
              (Mock.IsSilent d.dataType ∧ Mock.IsSilent s.dataType) ∨
                d.dataType = s.dataType ∧
                  (s.dataType = .string → d.dateFormat.isSome = s.dateFormat.isSome))) := by
  obtain ⟨properties, hfound, hproperties⟩ := exists_documented hstep hchain h
  refine ⟨properties, hfound, fun m d s hs => ⟨hproperties m d s hs, ?_⟩⟩
  intro hsaid hcorrection hrules
  have hmock : s.mock = Mock.byType d := by
    rw [hs.corrected, Member.correct_mock hcorrection, hs.mock_described, henabled, hsaid,
      Mock.choose_of_unsaid hrules]
  have hvalues : d.values = s.values := by
    rw [hs.corrected, Member.correct_values]
  exact ⟨hmock, by rw [hmock, Mock.byType_eq_iff hvalues]⟩

def ticketNumber : Member :=
  { name := "number", typeText := "String", annotations := [], doc := {}, initial := none }

def ticket : TypeDecl :=
  { name := "Ticket", shortName := "Ticket", kind := .record
    fields := [{ name := "number", typeText := "String" }] }

def retyped : TypeOverride :=
  { fields := [("number", { dataType := some .integer })] }

def tickets : Project :=
  Project.of (({} : Catalog).insertAll [ticket]) { types := [("Ticket", retyped)] }

/-- The number of a ticket as its member describes it. -/
def writtenNumber : Schema :=
  { (ofType .string) with name := "number", mock := some "@string" }

/-- The number of a ticket as the correction leaves it. -/
def retypedNumber : Schema :=
  { (ofType .integer) with name := "number", mock := some "@string" }

private theorem isRecord_ticket : tickets.IsRecord ticket := by
  have hcatalog : tickets.catalog = ({} : Catalog).insertAll [ticket] := rfl
  have hfound : ∀ v ∈ [ticket], tickets.catalog.find? v.name = some v := by
    rw [hcatalog]
    intro v hv
    rw [List.mem_singleton.mp hv]
    decide
  exact Project.isRecord_of_closed hfound (by decide) (by decide) (by decide)
    (List.mem_singleton_self ticket)

private theorem members_ticket : Member.ofType tickets ticket = [ticketNumber] :=
  isRecord_ticket.own_members rfl rfl

private theorem step_string : step tickets "String" = .settled (.plain .string) :=
  @step_scalar tickets "String" none (by decide) .string (by decide)
    (by decide)

private theorem describe_number (u : Usage) :
    ticketNumber.describe tickets u "String" (ofType .string) = writtenNumber := by
  obtain ⟨direction, carrier⟩ := u
  have hdate : DateFormat.find? tickets "String" ticketNumber.annotations carrier = none := by
    have hkind : DateFormat.isDate tickets "String" = false := by decide
    rw [DateFormat.find?, hkind, if_neg Bool.false_ne_true]
  rw [Member.describe, stampDate_eq, hdate]
  cases direction <;> rfl

private theorem substitute_number :
    TypeText.substitute (TypeText.bind ticket.parameters []) ticketNumber.typeText = "String" := by
  decide

private theorem isShown_number : ticketNumber.isShown (some retyped) = true := by
  decide

private theorem documents_number (u : Usage) :
    Documents tickets u [] "Ticket" ticket [] ticketNumber writtenNumber retypedNumber := by
  have hfound : (resolve tickets u (Chain.push [] ticket.name) "String").given? =
      some (some (ofType .string)) := by
    rw [given?, resolve_of_plain step_string]
    rfl
  refine ⟨?_, isShown_number, ⟨ofType .string, ?_, ?_⟩, rfl⟩
  · rw [members_ticket]
    exact List.mem_singleton_self ticketNumber
  · rw [substitute_number, hfound]
  · rw [substitute_number, describe_number]

private theorem resolve_ticket (u : Usage) (w : List Warning) :
    resolve tickets u [] "Ticket" w =
      some (some (withProperties [("number", retypedNumber)]), w) := by
  have hown : memberEntries tickets u (resolve tickets u (Chain.push [] ticket.name)) "Ticket"
      ticket [] w = some ([[("number", retypedNumber)]], w) := by
    have hstep : step tickets (TypeText.substitute (TypeText.bind ticket.parameters [])
        ticketNumber.typeText) = .settled (.plain .string) := by
      rw [substitute_number, step_string]
    have hadded : addedBy tickets u (resolve tickets u (Chain.push [] ticket.name)) (some retyped)
        (TypeText.bind ticket.parameters []) ticketNumber w =
          some ([("number", retypedNumber)], w) := by
      rw [addedBy_of_plain isShown_number hstep, substitute_number, describe_number]
      rfl
    rw [memberEntries, members_ticket, List.mapM_cons, List.mapM_nil]
    exact bind_eq_some.mpr ⟨_, w, hadded, rfl⟩
  exact (resolve_members isRecord_ticket.step rfl).mpr ⟨[], _, w, rfl, hown, rfl⟩

/-- A text that is corrected to a number keeps the mock of a text. -/
theorem retyped_keeps_mock :
    tickets.settings.mocksEnabled = true ∧ tickets.mocks = [] ∧
      Documents tickets ⟨.response, .body⟩ [] "Ticket" ticket [] ticketNumber writtenNumber
        retypedNumber ∧
      ticketNumber.doc.tag? "mock" = none ∧
      (∀ o ∈ ticketNumber.correction? (tickets.settings.typeOverride? "Ticket" (some ticket))
        writtenNumber.name, o.mock = none) ∧
      resolve tickets ⟨.response, .body⟩ [] "Ticket" [] =
        some (some (withProperties [("number", retypedNumber)]), []) ∧
      retypedNumber.mock = some "@string" ∧ Mock.byType retypedNumber = some "@integer" := by
  exact ⟨rfl, rfl, documents_number _, by decide, by decide,
    resolve_ticket _ _, rfl, rfl⟩

/-- The number of a ticket has the mock of the text that its member is, and so not its own. -/
theorem resolve_mocks_ticket :
    tickets.settings.mocksEnabled = true ∧
      step tickets "Ticket" = .settled (.members "Ticket" ticket []) ∧
      Chain.has [] ticket.name = false ∧
      resolve tickets ⟨.response, .body⟩ [] "Ticket" [] =
        some (some (withProperties [("number", retypedNumber)]), []) ∧
      retypedNumber.mock = Mock.byType writtenNumber ∧
      retypedNumber.mock ≠ Mock.byType retypedNumber := by
  have hfound := resolve_ticket ⟨.response, .body⟩ []
  obtain ⟨properties, hproperties, hmocks⟩ :=
    resolve_mocks (p := tickets) rfl isRecord_ticket.step rfl hfound
  obtain ⟨-, hnumber⟩ := hmocks ticketNumber writtenNumber retypedNumber (documents_number _)
  have hsaid : ticketNumber.doc.tag? "mock" = none := by decide
  have hcorrection : ∀ o ∈ ticketNumber.correction?
      (tickets.settings.typeOverride? "Ticket" (some ticket)) writtenNumber.name,
      Text.contentOf? o.mock = none := by decide
  obtain ⟨hmock, hsuits⟩ := hnumber hsaid hcorrection nofun
  refine ⟨rfl, isRecord_ticket.step, rfl, hfound, hmock, fun h => ?_⟩
  rcases hsuits.mp h with ⟨hfile | harray | hobject, -⟩ | ⟨htype, -⟩
  · cases hfile
  · cases harray
  · cases hobject
  · cases htype

end Schema

end EndpointDocs

import EndpointDocs.Proofs.Member.Described
import EndpointDocs.Proofs.Resolution.Termination
import EndpointDocs.Proofs.Shape.Records
import EndpointDocs.Proofs.Shape.Renaming

namespace EndpointDocs

open TypeText

private theorem Member.alone_typeText {q : Project} {x y : String} {t : TypeDecl} {m : Member}
    (h : q.StandsFor x y) (hw : q.LegibleHierarchy x y) (ht : t ∈ q.catalog.types)
    (hm : m ∈ ofType q t) : Alone y m.typeText := by
  rcases mem_ofType hm with htext | ⟨e, he, text, htext, heq⟩
  · exact h.alone t ht _ htext
  · obtain ⟨w, hwritten, hfind, hbind⟩ := Catalog.mem_ancestors he
    rw [heq]
    refine (h.alone _ (Catalog.mem_of_find? hfind) text htext).substitute fun v hv => ?_
    rw [hbind] at hv
    exact (hw t ht w hwritten).alone.arguments (mem_values_bind hv)

namespace Schema

open Shape Catalog Noting

variable {q : Project} {x y text name name' : String} {u : Usage} {t : TypeDecl}
  {arguments : List String} {f g : String → Noting (Option Schema)}

private theorem related?_rename (h : q.StandsFor x y) (hw : q.LegibleHierarchy x y)
    (ht : t ∈ q.catalog.types) (reference : String) :
    related? (q.mapTypes (·.renameParameter y x)) (t.renameParameter y x) reference =
      (related? q t reference).map (·.renameParameter y x) := by
  have hname (s : TypeDecl) : (s.renameParameter y x).name = s.name := rfl
  have hsupertypes : ∀ s ∈ q.catalog.types, ∀ r ∈ s.supertypes, q.Legible x y r :=
    fun s hs r hr => hw s hs r (.own hr)
  have hknown {s : TypeDecl} (hs : s ∈ q.catalog.types) : s.name ∈ q.knownNames := by
    have hl : q.catalog.types.map (·.name) ∈ q.nameLists := by simp [Project.nameLists]
    exact Project.mem_knownNames hl (List.mem_map_of_mem hs)
  rw [related?, Project.find?_mapTypes hname, related?]
  cases hfind : q.catalog.find? reference with
  | none => rfl
  | some s =>
    have hs := Catalog.mem_of_find? hfind
    have hdown := Project.inherits_rename h hsupertypes hs (hknown ht)
    have hup := Project.inherits_rename h hsupertypes ht (hknown hs)
    simp only [Option.map_some, Option.filter_some, hname, hdown, hup]
    split <;> rfl

/-- The properties taken over from other types are the same. -/
theorem seen_rename (h : q.StandsFor x y) (hw : q.LegibleHierarchy x y) (ht : t ∈ q.catalog.types)
    (hfg : ∀ s ∈ seenTypes q t, Alike (f s.name) (g s.name)) :
    Alike (seen q f name t)
      (seen (q.mapTypes (·.renameParameter y x)) g name' (t.renameParameter y x)) := by
  apply alike_foldlM
  intro properties reference hr
  rw [related?_rename h hw ht]
  cases hrelated : related? q t reference with
  | none => exact (alike_warn _ _ _).bind fun _ => alike_pure properties
  | some s =>
    have hs : s ∈ seenTypes q t := List.mem_filterMap.mpr ⟨reference, hr, hrelated⟩
    exact (hfg s hs).bind fun found => alike_pure _

private theorem describe_rename {m : Member} (h : q.StandsFor x y) (ht : q.Legible x y text)
    (s : Schema) :
    (m.mapText (rename y x)).describe (q.mapTypes (·.renameParameter y x)) u (rename y x text) s =
      m.describe q u text s := by
  unfold Member.describe
  simp only [Member.mapText, Project.stampDate_rename h ht]
  rfl

/-- The property of a member is the same. -/
theorem addMember_rename {m : Member} {override : Option TypeOverride} {bindings : Bindings}
    (h : q.StandsFor x y)
    (hbound : m.isShown override = true → KeepsApart y x bindings.keys (names m.typeText))
    (hlegible : m.isShown override = true → q.Legible x y (substitute bindings m.typeText))
    (hfg : m.isShown override = true → Alike (f (substitute bindings m.typeText))
      (g (rename y x (substitute bindings m.typeText)))) (properties : OrderedMap Schema) :
    Alike (addMember q u f override bindings properties m)
      (addMember (q.mapTypes (·.renameParameter y x)) u g override (renameBindings y x bindings)
        properties (m.mapText (rename y x))) := by
  have hsame : (m.mapText (rename y x)).isShown override = m.isShown override := rfl
  have hcorrect (s : Schema) : (m.mapText (rename y x)).correct override s = m.correct override s :=
    rfl
  unfold addMember
  rw [hsame]
  split
  · next hshown =>
    have hcommute : substitute (renameBindings y x bindings) (rename y x m.typeText) =
        rename y x (substitute bindings m.typeText) :=
      (rename_substitute h.fresh.1 h.parameter (hbound hshown)).symm
    simp only [Member.mapText] at hcorrect ⊢
    rw [hcommute]
    refine (hfg hshown).bind fun found => ?_
    cases found with
    | none => exact alike_pure properties
    | some s =>
      have hdescribe := @describe_rename q x y _ u m h (hlegible hshown) s
      simp only [Member.mapText] at hdescribe
      simp only [hdescribe, hcorrect]
      exact alike_pure _
  · exact alike_pure properties

private theorem propertiesOf_rename (h : q.StandsFor x y) (hw : q.LegibleHierarchy x y)
    (ht : t ∈ q.catalog.types) (halone : ∀ a ∈ arguments, Alone y a)
    (hoverride : q.settings.typeOverride? name' (some t) = q.settings.typeOverride? name (some t))
    (hmembers : ∀ m ∈ Member.ofType q t,
      m.isShown (q.settings.typeOverride? name (some t)) = true →
        KeepsApart y x t.parameters (names m.typeText))
    (hreturned : x ∈ voidNames → Member.hasAccessors q t = true →
      ∀ m ∈ q.catalog.allMethods t, y ∉ names (rawName m.returnType))
    (hlegible : ∀ r ∈ references q name t arguments, Alone y r → q.Legible x y r)
    (hfg : ∀ r ∈ references q name t arguments, Alone y r → Alike (f r) (g (rename y x r))) :
    Alike (propertiesOf q u f name t arguments)
      (propertiesOf (q.mapTypes (·.renameParameter y x)) u g name' (t.renameParameter y x)
        (arguments.map (rename y x))) := by
  have hsame : (q.mapTypes (·.renameParameter y x)).settings.typeOverride? name'
      (some (t.renameParameter y x)) = q.settings.typeOverride? name (some t) := hoverride
  have hseen : ∀ s ∈ seenTypes q t, Alike (f s.name) (g s.name) := by
    intro s hs
    obtain ⟨reference, _, hrelated⟩ := List.mem_filterMap.mp hs
    have hfind : q.catalog.find? reference = some s := by
      rw [related?] at hrelated
      exact (Option.filter_eq_some_iff.mp hrelated).1
    have hl : q.catalog.types.map (·.name) ∈ q.nameLists := by simp [Project.nameLists]
    have hend : ¬ HasEnding s.name y := fun hend => h.unknown
      ⟨s.name, Project.mem_knownNames hl (List.mem_map_of_mem (Catalog.mem_of_find? hfind)), hend⟩
    have hkeep : rename y x s.name = s.name :=
      rename_of_not_mem (Project.not_mem_names_of_not_hasEnding h.fresh.1 hend)
    have halike := hfg s.name (List.mem_append_left _ (List.mem_map_of_mem hs))
      (alone_of_not_hasEnding hend)
    rwa [hkeep] at halike
  unfold propertiesOf
  refine (seen_rename h hw ht hseen).bind fun taken => ?_
  rw [hsame, Project.bind_renamed h ht, Member.ofType_rename h hw ht hreturned]
  apply alike_foldlM_map
  intro properties m hm
  have htext (hshown : m.isShown (q.settings.typeOverride? name (some t)) = true) :
      substitute (bind t.parameters arguments) m.typeText ∈ references q name t arguments :=
    List.mem_append_right _ (List.mem_map_of_mem (List.mem_filter.mpr ⟨hm, hshown⟩))
  have hbound : Alone y (substitute (bind t.parameters arguments) m.typeText) :=
    (Member.alone_typeText h hw ht hm).substitute fun v hv => halone v (mem_values_bind hv)
  apply addMember_rename h
  · exact fun hshown k hk => hmembers m hm hshown k (mem_keys_bind hk)
  · exact fun hshown => hlegible _ (htext hshown) hbound
  · exact fun hshown => hfg _ (htext hshown) hbound

/-- One step of resolving gives the same if it takes the same from its nested calls. -/
theorem resolveOnce_rename {c : Call} {f g : Chain → String → Noting (Option Schema)}
    (h : q.StandsFor x y) (hw : q.LegibleHierarchy x y) (halone : Alone y c.text)
    (hclear : Clear q x y c.text) (hnested : ∀ d ∈ c.nested q, Clear q x y d.text)
    (hfg : ∀ d ∈ c.nested q, Alone y d.text →
      Alike (f d.chain d.text) (g d.chain (rename y x d.text))) :
    Alike (resolveOnce f q u c.chain c.text)
      (resolveOnce g (q.mapTypes (·.renameParameter y x)) u c.chain (rename y x c.text)) := by
  have hrenamed := step_rename h hw halone hclear
  unfold resolveOnce
  generalize hstep : step q c.text = before at hrenamed
  generalize step (q.mapTypes (·.renameParameter y x)) (rename y x c.text) = after at hrenamed
  cases hrenamed with
  | nothing => exact alike_pure _
  | plain d => exact alike_pure _
  | known d values => exact alike_pure _
  | members t arguments =>
    obtain ⟨hfind, -, -, rfl⟩ := step_members hstep
    refine Alike.bind ?_ fun s => alike_pure _
    unfold openType
    have hname : (t.renameParameter y x).name = t.name := rfl
    rw [hname]
    cases hc : c.chain.has t.name with
    | true => exact alike_pure _
    | false =>
      rw [nested_of_members hstep hc] at hnested hfg
      have hlegible := hclear.legible halone
      refine Alike.map ?_ withProperties
      apply propertiesOf_rename h hw (Catalog.mem_of_find? hfind)
      · exact fun a ha => halone.arguments ha
      · exact Project.typeOverride?_rename h hlegible (some t)
      · exact hclear.members _ _ _ hstep
      · exact fun hx => hclear.returned hx _ _ _ hstep
      · exact fun r hr hbound => (hnested _ (List.mem_map_of_mem hr)).legible hbound
      · exact fun r hr hbound => hfg _ (List.mem_map_of_mem hr) hbound
  | @list items hitems _ _ | @map items hitems _ _ | @elements _ items hitems =>
    have hd : ⟨c.chain, items⟩ ∈ c.nested q := by simp [Call.nested, hstep]
    exact Alike.bind (hfg ⟨c.chain, items⟩ hd hitems) fun found => alike_pure _

/-- Nowhere on the way from the call a name is taken for another one when `y` is called `x`. -/
structure Uncaptured (q : Project) (x y : String) (c : Call) : Prop where
  calls : ∀ d, Call.Reaches q c d → Clear q x y d.text
  hierarchy : q.Knows x → ∀ t ∈ q.catalog.types, ∀ w, Catalog.Written q.catalog t w →
    y ∉ names (rawName w)

theorem Uncaptured.nested {c d : Call} (hfree : Uncaptured q x y c) (hd : d ∈ c.nested q) :
    Uncaptured q x y d :=
  ⟨fun e he => hfree.calls e (he.head hd), hfree.hierarchy⟩

private theorem alone_of_written (h : q.StandsFor x y) (ht : t ∈ q.catalog.types) {w : String}
    (hwritten : Catalog.Written q.catalog t w) : Alone y w := by
  induction hwritten with
  | own hs => exact h.alone t ht _ (TypeDecl.mem_references_of_supertype hs)
  | above _ hfind hs ih =>
    have hsource := h.alone _ (Catalog.mem_of_find? hfind) _
      (TypeDecl.mem_references_of_supertype hs)
    exact hsource.substitute fun v hv => ih.arguments (mem_values_bind hv)

private theorem Uncaptured.legibleHierarchy {c : Call} (h : q.StandsFor x y)
    (hfree : Uncaptured q x y c) : q.LegibleHierarchy x y := by
  intro t ht w hwritten
  refine ⟨alone_of_written h ht hwritten, ?_⟩
  by_cases hx : q.Knows x
  · exact .inl (hfree.hierarchy hx t ht w hwritten)
  · exact .inr hx

/-- The result of a call that ends is the same with the parameter renamed. -/
theorem resolve_rename {c : Call} (h : q.StandsFor x y) (hends : Call.Ends q c)
    (halone : Alone y c.text) (hfree : Uncaptured q x y c) :
    Alike (resolve q u c.chain c.text)
      (resolve (q.mapTypes (·.renameParameter y x)) u c.chain (rename y x c.text)) := by
  induction hends with
  | @intro c _ ih =>
    rw [resolve_eq_resolveOnce, resolve_eq_resolveOnce]
    apply resolveOnce_rename h (hfree.legibleHierarchy h) halone (hfree.calls c .refl)
    · exact fun d hd => (hfree.nested hd).calls d .refl
    · exact fun d hd halone => ih d hd halone (hfree.nested hd)

/-- Renaming a parameter of a type to a name that occurs nowhere changes no result, if no name is
captured with the new name in its place. -/
theorem resolve_renameParameter {p : Project} {owner : String} {chain : Chain}
    {found : Option Schema} {v w : List Warning} (h : p.CanRename owner x y)
    (htext : ¬ HasEnding text y)
    (hfree : Uncaptured (p.renameParameter owner x y) x y ⟨chain, text⟩)
    (hfound : (resolve (p.renameParameter owner x y) u chain text v).map Prod.fst = some found) :
    (resolve p u chain text w).map Prod.fst = some found := by
  have hends : Call.Ends (p.renameParameter owner x y) ⟨chain, text⟩ := by
    obtain ⟨r, hr, _⟩ := Option.map_eq_some_iff.mp hfound
    exact ends_of_resolve (c := ⟨chain, text⟩) hr
  have hsame := resolve_rename (u := u) h.standsFor hends (alone_of_not_hasEnding htext) hfree
  have hkeep : rename y x text = text :=
    rename_of_not_mem (Project.not_mem_names_of_not_hasEnding h.fresh.1 htext)
  rw [h.renamed_back, hkeep] at hsame
  rw [← hsame v w, hfound]

variable {z : String}

/-- A type with a value of the type of its parameter. -/
def generic (parameter : String) : TypeDecl :=
  { name := "Base", shortName := "Base", kind := .record, parameters := [parameter]
    fields := [{ name := "value", typeText := parameter }] }

/-- A type with a parameter of its own that gives `generic` no argument. -/
def rawSubtype : TypeDecl :=
  { name := "Sub", shortName := "Sub", kind := .record, parameters := ["T"]
    supertypes := ["Base"] }

def rawCatalog (parameter : String) : Catalog :=
  { types := [generic parameter, rawSubtype]
    shortNames := [("Base", "Base"), ("Sub", "Sub")] }

def rawProject (parameter : String) : Project :=
  Project.of (rawCatalog parameter) {}

private theorem renameParameter_rawProject (hx : IsIdentifier x) (y : String) :
    (rawProject x).renameParameter "Base" x y = rawProject y := by
  have hgeneric : (generic x).renamedIn "Base" x y = generic y := by
    have hname : (generic x).name = "Base" := rfl
    rw [TypeDecl.renamedIn, if_pos hname]
    simp [generic, TypeDecl.renameParameter, TypeDecl.mapReferences, FieldDecl.mapText,
      rename_self hx, renameName]
  have hsub : rawSubtype.renamedIn "Base" x y = rawSubtype := by
    have hname : rawSubtype.name ≠ "Base" := by decide
    rw [TypeDecl.renamedIn, if_neg hname]
  simp [Project.renameParameter, Project.mapTypes, rawProject, rawCatalog, Project.of, hgeneric,
    hsub]

private theorem not_mem_builtin {s : Scalar} (hs : s ∈ Scalar.builtin) :
    'X' ∉ s.name.toList ∧ 'X' ∉ s.shortName.toList := by
  have hnames : ∀ s ∈ Scalar.builtin, 'X' ∉ s.name.toList := by decide
  have hshort : s.shortName = shortName s.name := by
    obtain ⟨e, _, he⟩ := List.mem_flatMap.mp (List.mem_reverse.mp hs)
    obtain ⟨n, _, rfl⟩ := List.mem_map.mp he
    rfl
  rw [hshort]
  exact ⟨hnames s hs, mt mem_of_mem_shortName (hnames s hs)⟩

/-- The letter `X` is in no known name. -/
private theorem not_knows_rawProject (z : String) (hx : 'X' ∈ x.toList) :
    ¬ (rawProject z).Knows x := by
  have hothers : ∀ n ∈ { rawProject "" with scalars := [] }.knownNames, 'X' ∉ n.toList := by
    decide
  have hsame : { rawProject z with scalars := [] }.knownNames =
    { rawProject "" with scalars := [] }.knownNames := rfl
  rintro ⟨n, hn, hend⟩
  refine not_hasEnding_of_not_mem hx ?_ hend
  rcases Project.mem_knownNames_cases hn with hn | ⟨s, hs, rfl | rfl⟩
  · exact hothers n (hsame ▸ hn)
  · exact (not_mem_builtin hs).1
  · exact (not_mem_builtin hs).2

private theorem canRename_rawProject (hz : IsIdentifier z) (hy : IsIdentifier y)
    (hx : 'X' ∈ y.toList) (hend : ¬ HasEnding z y) : (rawProject z).CanRename "Base" z y where
  parameter := hz
  fresh := hy
  declared := ⟨generic z, by simp [rawProject, Project.of, rawCatalog], rfl, by simp [generic]⟩
  unmentioned := by
    have hothers : 'X' ∉ "T".toList ∧ 'X' ∉ "Base".toList := by decide
    rintro (hknows | ⟨t, ht, text, htext, hin⟩)
    · exact not_knows_rawProject z hx hknows
    · have htypes : t = generic z ∨ t = rawSubtype := by
        simpa [rawProject, Project.of, rawCatalog] using ht
      have hmem : text ∈ [z, "T", "Base"] := by
        rcases htypes with rfl | rfl
        · simp [generic, TypeDecl.references] at htext
          simp [htext]
        · exact List.mem_cons_of_mem _ htext
      rcases (by simpa using hmem : text = z ∨ text = "T" ∨ text = "Base") with rfl | rfl | rfl
      · exact hend hin
      · exact not_hasEnding_of_not_mem hx hothers.1 hin
      · exact not_hasEnding_of_not_mem hx hothers.2 hin

private theorem find?_rawCatalog (z : String) : (rawCatalog z).find? "Base" = some (generic z) :=
  rfl

/-- What a type is called and extends does not depend on its parameter. -/
private theorem isRecord_rawSubtype (z : String) : (rawProject z).IsRecord rawSubtype := by
  have hcatalog : (rawProject z).catalog = rawCatalog z := rfl
  have hfound : ∀ v ∈ [rawSubtype, generic z], (rawProject z).catalog.find? v.name = some v := by
    rw [hcatalog]
    intro v hv
    rcases List.mem_pair.mp hv with rfl | rfl
    · rfl
    · exact find?_rawCatalog z
  have hroots : ∀ v ∈ [rawSubtype, generic ""],
      ∀ r ∈ ({} : Settings).collectionTypes ++ ({} : Settings).mapTypes,
        v.name ≠ rawName r ∧ v.shortName ≠ rawName r ∧
          ∀ s ∈ v.supertypes, ¬ Hits (rawName r) (rawName s) := by decide
  have hnames : ∀ v ∈ [rawSubtype, generic ""],
      (v.kind = .record ∧ IsBare v.name ∧ v.name ∉ voidNames) ∧
        Scalar.named? (Scalar.table {}) v.name = none ∧ v.name ∉ ({} : Settings).topTypes := by
    decide
  rw [List.forall_mem_cons, List.forall_mem_singleton] at hroots hnames
  exact Project.isRecord_of_closed hfound (by simp [rawSubtype, generic])
    (List.forall_mem_cons.mpr ⟨hroots.1, List.forall_mem_singleton.mpr hroots.2⟩)
    (List.forall_mem_cons.mpr ⟨hnames.1, List.forall_mem_singleton.mpr hnames.2⟩)
    List.mem_cons_self

private theorem step_rawSubtype (z : String) :
    step (rawProject z) "Sub<int>" = .settled (.members "Sub" rawSubtype ["int"]) := by
  have hstep : step (rawProject z) "Sub<int>" =
      .settled (.members "Sub" rawSubtype (arguments "Sub<int>")) :=
    (isRecord_rawSubtype z).step_withArguments (some "int")
  have harguments : arguments "Sub<int>" = ["int"] := by decide
  rw [hstep, harguments]

/-- The only member is the inherited one, with the parameter of its owner left as it is. -/
private theorem members_rawSubtype (z : String) :
    Member.ofType (rawProject z) rawSubtype = [⟨"value", z, [], {}, none⟩] := by
  have hcatalog : (rawProject z).catalog = rawCatalog z := rfl
  have hancestors : (rawCatalog z).ancestors rawSubtype = [(generic z, bind [z] [])] := by
    have hnone : arguments "Base" = [] := by decide
    have hnames : (generic z).name ≠ rawSubtype.name := by simp [generic, rawSubtype]
    rw [ancestors_of_top_supertype rfl (find?_rawCatalog z) hnames (List.forall_mem_nil _),
      hnone]
    rfl
  have hunbound : bind [z] [] = [] := rfl
  rw [(isRecord_rawSubtype z).members rfl, hcatalog, allFields, hancestors, hunbound]
  simp [generic, rawSubtype, addField, Member.ofField, substitute_nil]

private theorem isShown_value (z : String) :
    Member.isShown ⟨"value", z, [], {}, none⟩ none = true := by
  have hignored : Remarks.isIgnored [] {} = false := by decide
  rw [Member.isShown, hignored]
  rfl

/-- Only what is bound for the subtype's own parameter is put in the place of the inherited one. -/
private theorem nested_rawSubtype (z : String) : Call.nested (rawProject z) ⟨[], "Sub<int>"⟩ =
    [⟨["Sub"], substitute (bind ["T"] ["int"]) z⟩] := by
  have hoverride : (rawProject z).settings.typeOverride? "Sub" (some rawSubtype) = none := rfl
  have hparameters : rawSubtype.parameters = ["T"] := rfl
  have hseen : seenTypes (rawProject z) rawSubtype = [] := rfl
  have hreferences : references (rawProject z) "Sub" rawSubtype ["int"] =
      [substitute (bind ["T"] ["int"]) z] := by
    rw [references, memberTexts, members_rawSubtype, hoverride, hparameters, hseen]
    simp [isShown_value]
  have hnested := nested_of_members (c := ⟨[], "Sub<int>"⟩) (step_rawSubtype z) (by decide)
  rw [hnested, hreferences]
  rfl

/-- A parameter that nothing is bound to is of no known type. -/
private theorem step_unbound (hz : z = "X" ∨ z = "XX") :
    step (rawProject z) z = .settled (.plain .object) := by
  have hword : component? z = none ∧ Text.trim z ≠ "" ∧ isVoid z = false ∧
      'X' ∈ (rawName z).toList ∧ 'X' ∈ (shortName (rawName z)).toList := by
    rcases hz with rfl | rfl
    · exact ⟨by decide, by decide, by decide, by decide, by decide⟩
    · exact ⟨by decide, by decide, by decide, by decide, by decide⟩
  obtain ⟨hcomponent, hne, hvoid, hraw, hshort⟩ := hword
  have hscalar :
      ∀ s ∈ Scalar.builtin, s.name ≠ rawName z ∧ s.shortName ≠ shortName (rawName z) := by
    intro s hs
    have hnot := not_mem_builtin hs
    exact ⟨fun heq => hnot.1 (heq ▸ hraw), fun heq => hnot.2 (heq ▸ hshort)⟩
  have htable : (rawProject z).scalars = Scalar.builtin := rfl
  have hnamed : Scalar.named? Scalar.builtin z = none := by
    rw [Scalar.named?, List.find?_eq_none.mpr fun s hs => by simpa using (hscalar s hs).1]
    rfl
  have hloose : Scalar.loose? Scalar.builtin z = none := by
    rw [Scalar.loose?, hnamed,
      List.find?_eq_none.mpr fun s hs => by simpa using (hscalar s hs).2]
    rfl
  have hfind : (rawProject z).catalog.find? z = none := by
    have hcatalog : (rawProject z).catalog = rawCatalog z := rfl
    rw [hcatalog]
    rcases hz with rfl | rfl <;> decide
  rw [step_of_component?_eq_none hcomponent hne, hvoid, htable, hnamed, hfind, hloose]
  rfl

/-- The subtype has one property, of the type that the inherited parameter is read as. -/
private theorem resolve_rawSubtype {d : DataType} {v : List Warning}
    (h : step (rawProject z) (substitute (bind ["T"] ["int"]) z) = .settled (.plain d)) :
    ∃ s, s.dataType = (Schema.ofType d).dataType ∧
      (resolve (rawProject z) u [] "Sub<int>" v).map Prod.fst =
        some (some (withProperties [(s.name, s)])) := by
  let m : Member := ⟨"value", z, [], {}, none⟩
  let text := substitute (bind ["T"] ["int"]) z
  let s := m.describe (rawProject z) u text (Schema.ofType d)
  have hmember : addMember (rawProject z) u (resolve (rawProject z) u ["Sub"]) none
      (bind ["T"] ["int"]) [] m v = some ([(s.name, s)], v) := by
    rw [addMember, if_pos (isShown_value z)]
    exact bind_eq_some.mpr ⟨_, _, resolve_of_plain h v, rfl⟩
  have hproperties : propertiesOf (rawProject z) u (resolve (rawProject z) u ["Sub"]) "Sub"
      rawSubtype ["int"] v = some ([(s.name, s)], v) := by
    refine bind_eq_some.mpr ⟨[], v, rfl, ?_⟩
    rw [members_rawSubtype, List.foldlM_cons]
    exact bind_eq_some.mpr ⟨_, _, hmember, rfl⟩
  refine ⟨s, m.describe_dataType _ u text _, ?_⟩
  rw [resolve_eq_resolveOnce, resolveOnce, step_rawSubtype]
  have hopened : openType (resolve (rawProject z) u) (rawProject z) u [] "Sub" rawSubtype ["int"]
      v = some (withProperties [(s.name, s)], v) := map_eq_some.mpr ⟨_, v, hproperties, rfl⟩
  exact Option.map_eq_some_iff.mpr ⟨(_, v), bind_eq_some.mpr ⟨_, v, hopened, rfl⟩, rfl⟩

private theorem step_bound : step (rawProject "T") (substitute (bind ["T"] ["int"]) "T") =
    .settled (.plain .integer) := by
  have htext : substitute (bind ["T"] ["int"]) "T" = "int" := by decide
  have hscalar : Scalar.named? (Scalar.table {}) "int" = some .integer := by decide
  have hnamed : Scalar.named? (rawProject "T").scalars "int" = some .integer := hscalar
  have hvoid : isVoid "int" = false := by decide
  rw [htext, step_of_component?_eq_none (by decide) (by decide), hvoid, hnamed]
  rfl

private theorem clear_rawSubtype : Clear (rawProject "XX") "X" "XX" "Sub<int>" where
  read := fun hknows => absurd hknows (not_knows_rawProject "XX" (by decide))
  returned := fun hmem => absurd hmem (by decide)
  members := by
    intro name t arguments hstep m hm _
    rw [step_rawSubtype] at hstep
    cases hstep
    rw [members_rawSubtype, List.mem_singleton] at hm
    subst hm
    rw [names_of_isIdentifier (by decide)]
    change KeepsApart "XX" "X" ["T"] ["XX"]
    unfold KeepsApart
    decide
  elements := by
    intro t element _ hstep
    rw [step_rawSubtype] at hstep
    cases hstep

/-- With the new name in its place, the parameter is a name of its own on the way. -/
private theorem uncaptured_rawProject : Uncaptured (rawProject "XX") "X" "XX" ⟨[], "Sub<int>"⟩ where
  calls := by
    have hkept : substitute (bind ["T"] ["int"]) "XX" = "XX" := by decide
    have hnested := nested_rawSubtype "XX"
    have hleaf : step (rawProject "XX") "XX" = .settled (.plain .object) := step_unbound (.inr rfl)
    rw [hkept] at hnested
    intro d hd
    rcases Relation.ReflTransGen.cases_head hd with rfl | ⟨e, he, hd⟩
    · exact clear_rawSubtype
    rw [hnested, List.mem_singleton] at he
    subst he
    rcases Relation.ReflTransGen.cases_head hd with rfl | ⟨e, he, -⟩
    · exact clear_of_plain (not_knows_rawProject "XX" (by decide)) (by decide) hleaf
    · simp [Call.nested, hleaf] at he
  hierarchy := fun hknows => absurd hknows (not_knows_rawProject "XX" (by decide))

theorem resolve_renameParameter_unbound :
    (rawProject "X").CanRename "Base" "X" "XX" ∧ ¬ HasEnding "Sub<int>" "XX" ∧
      Uncaptured ((rawProject "X").renameParameter "Base" "X" "XX") "X" "XX" ⟨[], "Sub<int>"⟩ ∧
      ∃ found, (resolve ((rawProject "X").renameParameter "Base" "X" "XX") ⟨.request, .body⟩ []
          "Sub<int>" []).map Prod.fst = some found ∧
        (resolve (rawProject "X") ⟨.request, .body⟩ [] "Sub<int>" []).map Prod.fst =
          some found := by
  have hx : IsIdentifier "X" := by decide
  have hkept : substitute (bind ["T"] ["int"]) "XX" = "XX" := by decide
  have hend : ¬ HasEnding "X" "XX" := by
    have hsuffix : isPathSuffix "X" "XX" = false := by decide
    simp [HasEnding, names_of_isIdentifier hx, hsuffix]
  have hcan : (rawProject "X").CanRename "Base" "X" "XX" :=
    canRename_rawProject hx (by decide) (by decide) hend
  have htext : ¬ HasEnding "Sub<int>" "XX" :=
    not_hasEnding_of_not_mem (c := 'X') (by decide) (by decide)
  have hfree := uncaptured_rawProject
  have hleaf := step_unbound (z := "XX") (.inr rfl)
  rw [← hkept] at hleaf
  obtain ⟨s, -, hfound⟩ := resolve_rawSubtype (u := ⟨.request, .body⟩) (v := []) hleaf
  rw [← renameParameter_rawProject hx] at hfree hfound
  exact ⟨hcan, htext, hfree, _, hfound, resolve_renameParameter hcan htext hfree hfound⟩

theorem resolve_renameParameter_captured :
    (rawProject "T").CanRename "Base" "T" "X" ∧ ¬ HasEnding "Sub<int>" "X" ∧
      ∃ found found', found ≠ found' ∧
        (resolve (rawProject "T") ⟨.request, .body⟩ [] "Sub<int>" []).map Prod.fst = some found ∧
        (resolve ((rawProject "T").renameParameter "Base" "T" "X") ⟨.request, .body⟩ [] "Sub<int>"
          []).map Prod.fst = some found' := by
  have hx : IsIdentifier "T" := by decide
  have hkept : substitute (bind ["T"] ["int"]) "X" = "X" := by decide
  have hcan : (rawProject "T").CanRename "Base" "T" "X" :=
    canRename_rawProject hx (by decide) (by decide)
      (not_hasEnding_of_not_mem (c := 'X') (by decide) (by decide))
  have htext : ¬ HasEnding "Sub<int>" "X" :=
    not_hasEnding_of_not_mem (c := 'X') (by decide) (by decide)
  have hleaf := step_unbound (z := "X") (.inl rfl)
  rw [← hkept] at hleaf
  obtain ⟨s, hs, hfound⟩ := resolve_rawSubtype (u := ⟨.request, .body⟩) (v := []) step_bound
  obtain ⟨s', hs', hfound'⟩ := resolve_rawSubtype (u := ⟨.request, .body⟩) (v := []) hleaf
  rw [← renameParameter_rawProject hx] at hfound'
  refine ⟨hcan, htext, _, _, ?_, hfound, hfound'⟩
  intro heq
  have hsame : s = s' := by
    simp only [withProperties, Option.some.injEq, Schema.mk.injEq, List.cons.injEq,
      Prod.mk.injEq] at heq
    tauto
  have hdata : s.dataType = s'.dataType := congrArg _ hsame
  rw [hs, hs'] at hdata
  cases hdata

end Schema

end EndpointDocs

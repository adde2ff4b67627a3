import EndpointDocs.Proofs.Resolution.Unfolding
import EndpointDocs.Proofs.Resolution.Warnings
import EndpointDocs.Proofs.Shape.Records
import EndpointDocs.Proofs.Shape.Respelling

namespace EndpointDocs

open TypeText Noting

/-- What the scalars say of the full name of a type, if anything, is what the type is by itself. -/
def Project.NamesAgree (p : Project) (t : TypeDecl) : Prop :=
  ∀ d, Scalar.named? p.scalars t.name = some d →
    p.classify t = .file ∨
      (p.classify t = d ∧ d.isScalar = true ∧ p.isMap t = false ∧ p.isTop t = false ∧
        Shape.constantsOf t = none)

/-- A type that is found by its short name, which by itself means nothing else. -/
structure Project.KnowsShort (p : Project) (t : TypeDecl) : Prop where
  found : p.catalog.find? t.shortName = some t
  noScalar : Scalar.named? p.scalars t.shortName = none
  noOverride : p.settings.types.get? t.shortName = none

variable {p : Project} {u : Usage} {t : TypeDecl} {a b : String}

theorem Project.KnowsShort.typeOverride?_eq (h : p.KnowsShort t) :
    p.settings.typeOverride? t.shortName (some t) = p.settings.typeOverride? t.name (some t) := by
  simp only [Settings.typeOverride?, h.noOverride, Option.bind_some, Option.or_none, Option.none_or,
    Option.or_self]

private theorem Project.KnowsShort.found_full (h : p.KnowsShort t) (hname : IsBare t.name) :
    p.catalog.find? t.name = some t := by
  rw [Catalog.find?, hname.rawName_eq, if_neg hname.nonempty, Catalog.byName?_of_find? h.found,
    Option.some_or]

namespace Shape

/-- Where the scalars agree with the type, it says what they say of its full name. -/
theorem stepType_of_namesAgree {d : DataType} {text : String} (h : p.NamesAgree t)
    (hd : Scalar.named? p.scalars t.name = some d) :
    stepType p text t = .settled (.plain d) ∨
      stepType p text t = .settled (.known d none) ∧ d.isScalar = true := by
  rcases h d hd with hfile | ⟨hclass, hscalar, hmap, htop, hconstants⟩
  · have hlabel : d = .file := by
      unfold Project.classify at hfile
      split at hfile
      · cases hfile
      split at hfile
      · cases hfile
      · rwa [hd] at hfile
    subst hlabel
    exact .inl (ReadingOf.file hfile).eq
  · cases d with
    | array | object => cases hscalar
    | file => exact .inl (ReadingOf.file hclass).eq
    | string | integer | number | boolean =>
      have hreading := @ReadingOf.known p text t (by simp [hmap, htop]) (by simp [hclass])
        (by simp [hclass, DataType.isScalar])
      rw [hreading.eq, hclass, hconstants]
      exact .inr ⟨rfl, rfl⟩

end Shape

namespace Schema

open Shape

variable {chain : Chain} {text : String}

private theorem alike_resolveOnce {answer : Chain → String → Noting (Option Schema)}
    (h : ∀ chain text, Steady (answer chain text)) (hsteps : Respelled Eq (step p a) (step p b))
    (hname : ∀ t arguments, step p a = .settled (.members (rawName a) t arguments) →
      p.settings.typeOverride? (rawName a) (some t) = p.settings.typeOverride? (rawName b) (some t))
    (chain : Chain) :
    Alike (resolveOnce answer p u chain a) (resolveOnce answer p u chain b) := by
  unfold resolveOnce
  generalize step p a = before at hsteps hname ⊢
  generalize step p b = after at hsteps ⊢
  cases hsteps with
  | settled s =>
    refine steady_ofShape (fun name t arguments => ?_) s
    exact alike_openType h rfl chain arguments
  | @members t arguments _ hsame =>
    obtain rfl := List.forall₂_eq_eq_eq ▸ hsame
    exact (alike_openType h (hname t arguments rfl) chain arguments).bind fun s => alike_pure _
  | @list items _ _ _ hsame | @map items _ _ _ hsame =>
    subst hsame
    exact (h chain items).bind fun found => alike_pure _
  | elements _ items => exact (h chain items).bind fun found => alike_pure _

/-- A type has the same schema by its short and by its full name, whatever arguments follow, if
both names mean a value or neither does and what the scalars say of the full name agrees with it. -/
theorem resolve_spelling (hknown : p.KnowsShort t) (hshort : IsBare t.shortName)
    (hname : IsBare t.name) (hvoid : t.shortName ∈ voidNames ↔ t.name ∈ voidNames)
    (hagree : p.NamesAgree t) (u : Usage) (chain : Chain) (arguments? : Option String) :
    Alike (resolve p u chain (withArguments t.shortName arguments?))
      (resolve p u chain (withArguments t.name arguments?)) := by
  rw [resolve_eq_resolveOnce, resolve_eq_resolveOnce]
  by_cases hnothing : t.shortName ∈ voidNames
  · rw [resolveOnce, step_void hshort hnothing, resolveOnce, step_void hname (hvoid.mp hnothing)]
    exact alike_pure none
  have hstep : step p (withArguments t.shortName arguments?) =
      stepType p (withArguments t.shortName arguments?) t :=
    step_type hshort hnothing hknown.noScalar hknown.found
  have hvalue : t.name ∉ voidNames := mt hvoid.mpr hnothing
  -- Only the full name may be answered by the scalars, before the catalog is asked.
  cases hd : Scalar.named? p.scalars t.name with
  | none =>
    have hfull : step p (withArguments t.name arguments?) =
        stepType p (withArguments t.name arguments?) t :=
      step_type hname hvalue hd (hknown.found_full hname)
    apply alike_resolveOnce fun chain text => steady_resolve chain text
    · rw [hstep, hfull]
      refine stepType_respelled ?_
      rw [hshort.arguments_withArguments hname]
      exact List.forall₂_refl _
    · intro s arguments hs
      rw [hstep] at hs
      rw [(stepType_members hs).1, hshort.rawName_withArguments, hname.rawName_withArguments]
      exact hknown.typeOverride?_eq
  | some d =>
    rw [resolveOnce, resolveOnce, hstep, step_scalar hname hvalue hd]
    rcases stepType_of_namesAgree hagree hd with hplain | ⟨hscalar, hleaf⟩
    · rw [hplain]
      exact alike_pure _
    · rw [hscalar]
      have hsame : ofType d = scalar d := by
        cases d with
        | array | object => cases hleaf
        | _ => rfl
      simp only [ofShape, hsame]
      exact alike_pure _

def enumeration (name constant : String) : TypeDecl :=
  { name, shortName := shortName name, kind := .enumeration, constants := [{ name := constant }] }

/-- An enumeration that is a scalar by its full name. -/
def status : TypeDecl :=
  enumeration "demo.Status" "OPEN"

/-- A record that is a scalar by its full name. -/
def money : TypeDecl :=
  .named "demo.Money" .record

/-- An enumeration whose short name means no value. -/
def ownVoid : TypeDecl :=
  enumeration "demo.Void" "NOTHING"

/-- An array whose short name is read as an array of something else. -/
def levels : TypeDecl :=
  .arrayOf "demo.Level"

def namesakeTypes : List TypeDecl :=
  [status, money, ownVoid, enumeration "other.Level" "LOW", enumeration "demo.Level" "HIGH", levels]

def namesakes : Project :=
  Project.of (({} : Catalog).insertAll namesakeTypes)
    { scalars := [("demo.Status", "integer"), ("demo.Money", "number")] }

private theorem knowsShort_namesakes :
    namesakes.KnowsShort status ∧ namesakes.KnowsShort money ∧ namesakes.KnowsShort ownVoid ∧
      namesakes.KnowsShort levels := by
  have hscalars : ∀ name ∈ ["Status", "Money", "Void", "Level[]"],
      Scalar.named? (Scalar.table namesakes.settings) name = none := by decide
  have hcatalog : namesakes.catalog = ({} : Catalog).insertAll namesakeTypes := rfl
  refine ⟨⟨?_, hscalars "Status" (by simp), rfl⟩, ⟨?_, hscalars "Money" (by simp), rfl⟩,
    ⟨?_, hscalars "Void" (by simp), rfl⟩, ⟨?_, hscalars "Level[]" (by simp), rfl⟩⟩
  all_goals
    rw [hcatalog]
    decide

private theorem not_container_namesakes (ht : t ∈ namesakeTypes) :
    (namesakes.isCollection t = false ∧ namesakes.isMap t = false) ∧ namesakes.isTop t = false := by
  have hnames : ∀ t ∈ namesakeTypes, t.supertypes = [] ∧ t.name ∉ ({} : Settings).topTypes ∧
      ∀ bases ∈ [({} : Settings).collectionTypes, ({} : Settings).mapTypes], ∀ b ∈ bases,
        ¬ t.isNamed (rawName b) = true := by decide
  obtain ⟨hsupertypes, htop, hroots⟩ := hnames t ht
  have hany : ∀ bases ∈ [({} : Settings).collectionTypes, ({} : Settings).mapTypes],
      namesakes.inheritsAny t bases = false :=
    fun bases hbases => Catalog.inheritsAny_of_supertypes_eq_nil _ hsupertypes (hroots bases hbases)
  exact ⟨⟨hany _ (.head _), hany _ (.tail _ (.head _))⟩, decide_eq_false htop⟩

private theorem resolve_constant {name constant : String}
    (ht : enumeration name constant ∈ namesakeTypes)
    (htext : IsBare text) (hvoid : text ∉ voidNames)
    (hd : Scalar.named? (Scalar.table namesakes.settings) text = none)
    (hfind : namesakes.catalog.find? text = some (enumeration name constant)) (w : List Warning) :
    resolve namesakes u chain text w =
      some (some { scalar .string with values := some [⟨constant, none⟩] }, w) := by
  obtain ⟨hcollection, htop⟩ := not_container_namesakes ht
  have hstep : step namesakes text = stepType namesakes text (enumeration name constant) :=
    @step_type _ _ text none htext hvoid hd hfind
  exact resolve_of_known (hstep.trans (stepType_enumeration rfl hcollection htop rfl)) w

private theorem resolve_status (w : List Warning) :
    resolve namesakes u chain "Status" w =
      some (some { scalar .string with values := some [⟨"OPEN", none⟩] }, w) ∧
    resolve namesakes u chain "demo.Status" w = some (some (ofType .integer), w) := by
  have hshort : Scalar.named? (Scalar.table namesakes.settings) "Status" = none := by
    decide
  have hfull : Scalar.named? (Scalar.table namesakes.settings) "demo.Status" = some .integer := by
    decide
  have hstep : step namesakes "demo.Status" = .settled (.plain .integer) :=
    @step_scalar _ "demo.Status" none (by decide) .integer (by decide) hfull
  exact ⟨resolve_constant (by simp [namesakeTypes, status]) (by decide) (by decide) hshort
    knowsShort_namesakes.1.found w, resolve_of_plain hstep w⟩

private theorem resolve_ownVoid (w : List Warning) :
    resolve namesakes u chain "Void" w = some (none, w) ∧
    resolve namesakes u chain "demo.Void" w =
      some (some { scalar .string with values := some [⟨"NOTHING", none⟩] }, w) := by
  have hfull : Scalar.named? (Scalar.table namesakes.settings) "demo.Void" = none := by
    decide
  have hbare : IsBare "demo.Void" := by decide
  have hstep : step namesakes "Void" = .settled .nothing :=
    @step_void _ "Void" none (by decide) (by decide)
  refine ⟨?_, resolve_constant (by simp [namesakeTypes, ownVoid]) hbare (by decide) hfull
    (knowsShort_namesakes.2.2.1.found_full hbare) w⟩
  rw [resolve_eq_resolveOnce, resolveOnce, hstep]
  rfl

private theorem resolve_levels (w : List Warning) :
    resolve namesakes u chain "Level[]" w =
      some (some (array { scalar .string with values := some [⟨"LOW", none⟩] }), w) ∧
    resolve namesakes u chain "demo.Level[]" w =
      some (some (array { scalar .string with values := some [⟨"HIGH", none⟩] }), w) := by
  have hscalars : ∀ name ∈ ["Level", "demo.Level"],
      Scalar.named? (Scalar.table namesakes.settings) name = none := by decide
  have hcatalog : namesakes.catalog = ({} : Catalog).insertAll namesakeTypes := rfl
  have hother : namesakes.catalog.find? "Level" = some (enumeration "other.Level" "LOW") := by
    rw [hcatalog]
    decide
  have hown : namesakes.catalog.find? "demo.Level" = some (enumeration "demo.Level" "HIGH") := by
    rw [hcatalog]
    decide
  constructor
  · exact resolve_of_list (by decide) (by decide) (resolve_constant (by simp [namesakeTypes])
      (by decide) (by decide) (hscalars _ (by simp)) hother w)
  · exact resolve_of_list (by decide) (by decide) (resolve_constant (by simp [namesakeTypes])
      (by decide) (by decide) (hscalars _ (by simp)) hown w)

/-- The two names of a type lead to different schemas where the full name is a scalar, where one of
them means no value, and where they read as arrays. -/
theorem spelling_matters :
    (namesakes.KnowsShort status ∧
      Differ (resolve namesakes ⟨.response, .body⟩ [] status.shortName)
        (resolve namesakes ⟨.response, .body⟩ [] status.name)) ∧
    (namesakes.KnowsShort ownVoid ∧
      Differ (resolve namesakes ⟨.response, .body⟩ [] ownVoid.shortName)
        (resolve namesakes ⟨.response, .body⟩ [] ownVoid.name)) ∧
    namesakes.KnowsShort levels ∧
      Differ (resolve namesakes ⟨.response, .body⟩ [] levels.shortName)
        (resolve namesakes ⟨.response, .body⟩ [] levels.name) := by
  have hshort : status.shortName = "Status" ∧ ownVoid.shortName = "Void" ∧
      levels.shortName = "Level[]" := by
    refine ⟨?_, ?_, ?_⟩ <;> decide
  have hname : status.name = "demo.Status" ∧ ownVoid.name = "demo.Void" ∧
      levels.name = "demo.Level[]" := ⟨rfl, rfl, rfl⟩
  obtain ⟨hstatus, -, hvoid, hlevels⟩ := knowsShort_namesakes
  rw [hshort.1, hshort.2.1, hshort.2.2, hname.1, hname.2.1, hname.2.2]
  refine ⟨⟨hstatus, fun v w => ?_⟩, ⟨hvoid, fun v w => ?_⟩, hlevels, fun v w => ?_⟩
  · exact ⟨_, _, _, _, (resolve_status v).1, (resolve_status w).2, by simp [ofType, scalar]⟩
  · exact ⟨_, _, _, _, (resolve_ownVoid v).1, (resolve_ownVoid w).2, by simp⟩
  · exact ⟨_, _, _, _, (resolve_levels v).1, (resolve_levels w).2, by simp [array, scalar]⟩

/-- A scalar entry for the full name of a record has the same effect under its short name. -/
theorem resolve_spelling_money :
    Scalar.named? namesakes.scalars money.name = some .number ∧
      Alike (resolve namesakes ⟨.response, .body⟩ [] (withArguments money.shortName none))
        (resolve namesakes ⟨.response, .body⟩ [] (withArguments money.name none)) := by
  have hfull : Scalar.named? (Scalar.table namesakes.settings) "demo.Money" = some .number := by
    decide
  have hd : Scalar.named? namesakes.scalars money.name = some .number := hfull
  obtain ⟨hcontainer, htop⟩ := @not_container_namesakes money (by simp [namesakeTypes])
  have hclass : namesakes.classify money = .number := by
    have hkind : money.kind = .record := rfl
    simp [Project.classify, hkind, hcontainer.1, hd]
  have hagree : namesakes.NamesAgree money := by
    intro d hsome
    obtain rfl : .number = d := Option.some.inj (hd.symm.trans hsome)
    exact .inr ⟨hclass, rfl, hcontainer.2, htop, rfl⟩
  have hbare : IsBare money.shortName ∧ IsBare money.name := by decide
  have hvoid : money.shortName ∈ voidNames ↔ money.name ∈ voidNames := by decide
  exact ⟨hd, resolve_spelling knowsShort_namesakes.2.1 hbare.1 hbare.2 hvoid hagree _ [] none⟩

end Schema

end EndpointDocs

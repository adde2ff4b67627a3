import EndpointDocs.Proofs.Catalog.Supertypes
import EndpointDocs.Proofs.Member.Described
import EndpointDocs.Proofs.Resolution.Properties
import EndpointDocs.Proofs.Shape.Records

namespace EndpointDocs

open TypeText Catalog Noting

variable {p : Project} {u : Usage} {d t : TypeDecl} {added supertypes : List String}

namespace Schema

open Shape

/-- No properties can be taken over from what the run gives. -/
def YieldsNoProperties (x : Noting (Option Schema)) : Prop :=
  Yields x fun found => (found.bind (·.properties)).getD [] = []

/-- A collection is documented as an array, and a map without arguments as an object without
properties. -/
theorem yieldsNoProperties_resolveBy {deeper : Chain → String → Noting (Option Schema)}
    (hbare : IsBare t.name) (hown : p.catalog.byName? t.name = some t)
    (hcollection : p.isCollection t = true) (chain : Chain) :
    YieldsNoProperties (resolveBy deeper p u chain t.name) := by
  have harray (members : String → TypeDecl → List String → Noting Schema) (items : Shape) :
      YieldsNoProperties (ofShape members (.list items)) :=
    (yields_true _).bind fun _ _ => yields_pure rfl
  unfold resolveBy
  rw [ofText?_eq]
  cases hstep : step p t.name with
  | list | elements =>
    split
    · exact yields_endless _
    · rename_i shape hshape
      obtain ⟨items, -, rfl⟩ := Option.map_eq_some_iff.mp hshape
      exact harray _ items
  | map value _ =>
    have hvalue := step_map hstep
    rw [hbare.arguments_eq_nil] at hvalue
    cases hvalue
  | settled s =>
    rcases step_settled hstep with rfl | ⟨e, rfl⟩ | ⟨e, values, _, rfl⟩ | ⟨w, hw, rfl⟩
    · exact yields_pure rfl
    · refine yields_pure ?_
      cases e <;> rfl
    · exact yields_pure rfl
    · obtain ⟨hw, hobject, -⟩ := step_members hstep
      have hsame : w = t := by
        rw [Catalog.find?, hbare.rawName_eq, if_neg hbare.nonempty, hown, Option.some_or] at hw
        exact (Option.some.inj hw).symm
      rw [hsame, Project.classify, hcollection, Bool.or_true, if_pos rfl] at hobject
      cases hobject

private theorem yields_takenBy {f : String → Noting (Option Schema)} {name reference : String}
    (h : ∀ v, related? p t reference = some v → YieldsNoProperties (f v.name)) :
    Yields (takenBy p f name t reference) (· = []) := by
  unfold takenBy
  cases hr : related? p t reference with
  | none => exact (yields_true _).bind fun _ _ => yields_pure rfl
  | some v => exact (h v hr).bind fun _ hnone => yields_pure hnone

end Schema

namespace Project.AddsSupertypes

open Shape Schema

variable (h : p.AddsSupertypes d added supertypes) (hp : p.catalog.Regular)

section

variable (helement : ∀ t ∈ p.catalog.types, p.catalog.Above t d →
  inheritedElement (p.withSupertypes d.name supertypes) (t.withSupertypes d.name supertypes) =
    inheritedElement p t)

include h hp

private theorem not_above_of_object (ht : t ∈ p.catalog.types) (hobject : p.classify t = .object) :
    ¬ p.catalog.Above t d := by
  intro habove
  rw [classify, h.isCollection_of_above hp ht habove, Bool.or_true, if_pos rfl] at hobject
  cases hobject

include helement

theorem inheritedElement_eq (ht : t ∈ p.catalog.types) :
    inheritedElement (p.withSupertypes d.name supertypes) (t.withSupertypes d.name supertypes) =
      inheritedElement p t := by
  by_cases hd : p.catalog.Above t d
  · exact helement t ht hd
  · rw [h.withSupertypes_eq hp ht hd, inheritedElement, h.ancestors_of_not_above hp ht hd,
      inheritedElement]

private theorem stepType_withSupertypes (ht : t ∈ p.catalog.types) (text : String) :
    stepType (p.withSupertypes d.name supertypes) text (t.withSupertypes d.name supertypes) =
      stepType p text t := by
  have htop : (p.withSupertypes d.name supertypes).isTop
      (t.withSupertypes d.name supertypes) = p.isTop t := by
    rw [isTop, isTop, TypeDecl.withSupertypes_name]
    rfl
  have hconstants : constantsOf (t.withSupertypes d.name supertypes) = constantsOf t := by
    rw [constantsOf, constantsOf, TypeDecl.withSupertypes_kind, TypeDecl.withSupertypes_constants]
  unfold stepType
  simp only [h.classify_withSupertypes hp ht, h.isMap_withSupertypes hp ht, htop,
    h.inheritedElement_eq hp helement ht, TypeDecl.withSupertypes_name,
    TypeDecl.withSupertypes_component, hconstants]
  cases hclass : p.classify t with
  | object => rw [h.withSupertypes_eq hp ht (h.not_above_of_object hp ht hclass)]
  | _ => rfl

private theorem step_withSupertypes : step (p.withSupertypes d.name supertypes) = step p := by
  funext text
  have hscalars : (p.withSupertypes d.name supertypes).scalars = p.scalars := rfl
  unfold step
  simp only [find?_withSupertypes, hscalars]
  cases hfind : p.catalog.find? text with
  | none => rfl
  | some t =>
    simp only [Option.map_some, h.stepType_withSupertypes hp helement (mem_of_find? hfind)]

private theorem ofText?_withSupertypes :
    ofText? (p.withSupertypes d.name supertypes) = ofText? p := by
  funext text
  apply Option.ext
  intro s
  rw [ofText?_eq_some_iff, ofText?_eq_some_iff, h.step_withSupertypes hp helement]

end

section

include h hp

private theorem ofType_withSupertypes (ht : t ∈ p.catalog.types) (hd : ¬ p.catalog.Above t d) :
    Member.ofType (p.withSupertypes d.name supertypes) t = Member.ofType p t := by
  have haccessors : Member.hasAccessors (p.withSupertypes d.name supertypes) t =
      Member.hasAccessors p t := by
    have hinherits := h.inherits_of_not_above hp ht hd
    rw [Member.hasAccessors, Member.hasAccessors, inheritsAny, inheritsAny, funext hinherits]
    rfl
  rw [Member.ofType, Member.ofType, haccessors, Catalog.allMethods, Catalog.allMethods,
    Catalog.allFields, Catalog.allFields, h.ancestors_of_not_above hp ht hd]

private theorem related?_of_not_above {w : TypeDecl} {reference : String} (ht : t ∈ p.catalog.types)
    (hd : ¬ p.catalog.Above t d) (hfind : p.catalog.find? reference = some w)
    (hw : ¬ p.catalog.Above w d) :
    related? (p.withSupertypes d.name supertypes) t reference = related? p t reference := by
  have hmem := mem_of_find? hfind
  rw [related?, related?, find?_withSupertypes, hfind, Option.map_some,
    h.withSupertypes_eq hp hmem hw, Option.filter_some, Option.filter_some,
    h.inherits_of_not_above hp hmem hw, h.inherits_of_not_above hp ht hd]

/-- The entries that a `see` tag takes over are the same: from a collection there are none to
take. -/
theorem related_takenBy {f g : String → Noting (Option Schema)} {name reference : String}
    (ht : t ∈ p.catalog.types) (hd : ¬ p.catalog.Above t d)
    (hfg : ∀ text, Related Eq (f text) (g text))
    (hf : ∀ w ∈ p.catalog.types, p.isCollection w = true → YieldsNoProperties (f w.name))
    (hg : ∀ w ∈ p.catalog.types, p.isCollection w = true → YieldsNoProperties (g w.name)) :
    Related Eq (takenBy p f name t reference)
      (takenBy (p.withSupertypes d.name supertypes) g name t reference) := by
  have hnothing (hbefore : ∀ v, related? p t reference = some v → YieldsNoProperties (f v.name))
      (hafter : ∀ v, related? (p.withSupertypes d.name supertypes) t reference = some v →
        YieldsNoProperties (g v.name)) :
      Related Eq (takenBy p f name t reference)
        (takenBy (p.withSupertypes d.name supertypes) g name t reference) :=
    (yields_takenBy hbefore).related (yields_takenBy hafter) fun _ _ ha hb => ha.trans hb.symm
  cases hfind : p.catalog.find? reference with
  | none =>
    refine hnothing (fun v hv => ?_) (fun v hv => ?_)
    · rw [related?, hfind] at hv
      cases hv
    · rw [related?, find?_withSupertypes, hfind] at hv
      cases hv
  | some w =>
    have hw := mem_of_find? hfind
    by_cases hbelow : p.catalog.Above w d
    · have hcollection := h.isCollection_of_above hp hw hbelow
      refine hnothing (fun v hv => ?_) (fun v hv => ?_)
      · have hfound := (Option.filter_eq_some_iff.mp hv).1
        rw [hfind] at hfound
        cases hfound
        exact hf w hw hcollection
      · have hfound := (Option.filter_eq_some_iff.mp hv).1
        rw [find?_withSupertypes, hfind] at hfound
        cases hfound
        rw [TypeDecl.withSupertypes_name]
        exact hg w hw hcollection
    · have hsame := h.related?_of_not_above hp ht hd hfind hbelow
      cases hrelated : related? p t reference with
      | none =>
        refine hnothing (fun v hv => ?_) (fun v hv => ?_)
        · cases hrelated.symm.trans hv
        · cases (hsame.trans hrelated).symm.trans hv
      | some v =>
        rw [takenBy, takenBy, hsame, hrelated]
        exact (hfg v.name).bind fun _ _ hab => related_pure (hab ▸ rfl)

private theorem related_memberEntries {f g : String → Noting (Option Schema)} {name : String}
    {arguments : List String} (ht : t ∈ p.catalog.types) (hd : ¬ p.catalog.Above t d)
    (hfg : ∀ text, Related Eq (f text) (g text)) :
    Related Eq (memberEntries p u f name t arguments)
      (memberEntries (p.withSupertypes d.name supertypes) u g name t arguments) := by
  unfold memberEntries
  rw [h.ofType_withSupertypes hp ht hd]
  refine related_mapM fun m _ => ?_
  unfold addedBy
  have hdescribe (text : String) (s : Schema) :
      m.describe (p.withSupertypes d.name supertypes) u text s = m.describe p u text s :=
    m.describe_mapTypes p u text s (TypeDecl.withSupertypes_name d.name supertypes)
  have hsettings : (p.withSupertypes d.name supertypes).settings = p.settings := rfl
  simp only [hdescribe, hsettings]
  split
  · refine (hfg _).bind fun a b hab => ?_
    subst hab
    cases a with
    | none => exact related_pure rfl
    | some s => exact related_pure rfl
  · exact related_pure rfl

theorem related_propertiesOf {f g : String → Noting (Option Schema)} {name : String}
    {arguments : List String} (ht : t ∈ p.catalog.types) (hd : ¬ p.catalog.Above t d)
    (hfg : ∀ text, Related Eq (f text) (g text))
    (hf : ∀ w ∈ p.catalog.types, p.isCollection w = true → YieldsNoProperties (f w.name))
    (hg : ∀ w ∈ p.catalog.types, p.isCollection w = true → YieldsNoProperties (g w.name)) :
    Related Eq (propertiesOf p u f name t arguments)
      (propertiesOf (p.withSupertypes d.name supertypes) u g name t arguments) := by
  rw [propertiesOf_eq, propertiesOf_eq]
  refine (related_mapM fun reference _ => ?_).bind fun taken taken' htaken => ?_
  · exact h.related_takenBy hp ht hd hfg hf hg
  · refine (h.related_memberEntries hp ht hd hfg).bind fun own own' hown => ?_
    exact related_pure (htaken ▸ hown ▸ rfl)

end

/-- The runs give the same results below every chain, and nothing to take over for a collection. -/
structure InStep (p : Project) (f g : Chain → String → Noting (Option Schema)) : Prop where
  related : ∀ chain text, Related Eq (f chain text) (g chain text)
  before : ∀ chain, ∀ w ∈ p.catalog.types, p.isCollection w = true →
    YieldsNoProperties (f chain w.name)
  after : ∀ chain, ∀ w ∈ p.catalog.types, p.isCollection w = true →
    YieldsNoProperties (g chain w.name)

section

variable (helement : ∀ t ∈ p.catalog.types, p.catalog.Above t d →
  inheritedElement (p.withSupertypes d.name supertypes) (t.withSupertypes d.name supertypes) =
    inheritedElement p t)

include h hp helement

private theorem inStep_resolveBy {f g : Chain → String → Noting (Option Schema)}
    (hfg : InStep p f g) :
    InStep p (resolveBy f p u) (resolveBy g (p.withSupertypes d.name supertypes) u) where
  related chain text := by
    unfold resolveBy
    rw [h.ofText?_withSupertypes hp helement]
    cases hshape : ofText? p text with
    | none => exact related_endless_left _ _
    | some s =>
      refine (related_ofShape (R := Eq) (fun _ => rfl) (fun _ _ h => h ▸ rfl)
        (fun _ _ h => h ▸ rfl) (ofText?_eq_some_iff.mp hshape) ?_).imp fun a b hab => ?_
      · intro text name t arguments hstep
        obtain ⟨hfind, hobject, -⟩ := step_members hstep
        have ht := mem_of_find? hfind
        have hd := h.not_above_of_object hp ht hobject
        unfold openType
        split
        · exact related_pure rfl
        · have hproperties : Related Eq (propertiesOf p u (f (chain.push t.name)) name t arguments)
              (propertiesOf (p.withSupertypes d.name supertypes) u (g (chain.push t.name)) name t
                arguments) :=
            h.related_propertiesOf hp ht hd (hfg.related _) (hfg.before _) (hfg.after _)
          exact comparison_related.map hproperties fun _ _ hm => congrArg withProperties hm
      · cases hab with
        | none => rfl
        | some h => rw [h]
  before chain w hw hcollection :=
    yieldsNoProperties_resolveBy (hp.bare w hw) (hp.own w hw) hcollection chain
  after chain w hw hcollection := by
    have hname := TypeDecl.withSupertypes_name d.name supertypes w
    have hbare : IsBare (w.withSupertypes d.name supertypes).name := hname ▸ hp.bare w hw
    have hafter : YieldsNoProperties (resolveBy g (p.withSupertypes d.name supertypes) u chain
        (w.withSupertypes d.name supertypes).name) :=
      yieldsNoProperties_resolveBy hbare (h.wellNamed hp hw).own
        ((h.isCollection_withSupertypes hp hw).trans hcollection) chain
    rwa [hname] at hafter

private theorem inStep_resolveWithin (room : Nat) :
    InStep p (resolveWithin p u room)
      (resolveWithin (p.withSupertypes d.name supertypes) u room) := by
  induction room with
  | zero =>
    refine h.inStep_resolveBy hp helement ⟨fun _ _ => ?_, fun _ _ _ _ => ?_, fun _ _ _ _ => ?_⟩
    · exact related_endless_left _ _
    · exact yields_endless _
    · exact yields_endless _
  | succ room ih => exact h.inStep_resolveBy hp helement ih

theorem related_resolve (u : Usage) (chain : Chain) (text : String) :
    Related Eq (resolve p u chain text)
      (resolve (p.withSupertypes d.name supertypes) u chain text) := by
  have hlength : (p.withSupertypes d.name supertypes).catalog.types.length =
      p.catalog.types.length := List.length_map _
  rw [resolve_eq_resolveWithin, resolve_eq_resolveWithin, hlength]
  exact (h.inStep_resolveWithin hp helement _).related chain text

end

include h hp in
/-- Without arguments the collection is a list of what is bound first in its hierarchy. -/
theorem resolve_declared {text : String} (hbare : IsBare text) (hvoid : isVoid text = false)
    (hscalar : Scalar.named? p.scalars text = none) (hfind : p.catalog.find? text = some d)
    (u : Usage) (chain : Chain) :
    resolve p u chain text =
        (fun items => some (array (items.getD object))) <$>
          resolve p u chain (inheritedElement p d) ∧
      resolve (p.withSupertypes d.name supertypes) u chain text =
        (fun items => some (array (items.getD object))) <$>
          resolve (p.withSupertypes d.name supertypes) u chain (inheritedElement
            (p.withSupertypes d.name supertypes) (d.withSupertypes d.name supertypes)) := by
  have hne : Text.trim text ≠ "" := hbare.trimmed.symm ▸ hbare.nonempty
  have harray : p.classify d = .array := by
    rw [classify, h.collection, Bool.or_true, if_pos rfl]
  constructor
  · have hstep : step p text = .elements d.name (inheritedElement p d) := by
      rw [step_of_find? hne hbare.single hvoid hscalar hfind]
      exact stepType_inherited ⟨h.map, h.top⟩ harray h.component hbare.arguments_eq_nil
    rw [resolve_eq_resolveOnce, resolveOnce, hstep]
    rfl
  · have hfind' : (p.withSupertypes d.name supertypes).catalog.find? text =
        some (d.withSupertypes d.name supertypes) := by
      rw [find?_withSupertypes, hfind, Option.map_some]
    have htop : (p.withSupertypes d.name supertypes).isTop
        (d.withSupertypes d.name supertypes) = false := by
      rw [isTop, TypeDecl.withSupertypes_name]
      exact h.top
    have hscalar' : Scalar.named? (p.withSupertypes d.name supertypes).scalars text = none :=
      hscalar
    have hstep := stepType_inherited ⟨(h.isMap_withSupertypes hp h.declared).trans h.map, htop⟩
      ((h.classify_withSupertypes hp h.declared).trans harray)
      ((TypeDecl.withSupertypes_component _ _ d).trans h.component) hbare.arguments_eq_nil
    rw [resolve_eq_resolveOnce, resolveOnce, step_of_find? hne hbare.single hvoid hscalar' hfind',
      hstep]
    rfl

end Project.AddsSupertypes

namespace Schema

open Shape

/-- A collection that is written without arguments is a list of what is bound first in its
hierarchy. Where this stays the same for the collection and for the types below it, supertypes that
are neither collections nor maps change no schema, and it stays the same where no type above them
has parameters. -/
theorem resolve_withSupertypes (hp : p.catalog.Regular)
    (h : p.AddsSupertypes d added supertypes) :
    (∀ text, IsBare text → isVoid text = false → Scalar.named? p.scalars text = none →
        p.catalog.find? text = some d → ∀ u chain,
      resolve p u chain text =
          (fun items => some (array (items.getD object))) <$>
            resolve p u chain (inheritedElement p d) ∧
        resolve (p.withSupertypes d.name supertypes) u chain text =
          (fun items => some (array (items.getD object))) <$>
            resolve (p.withSupertypes d.name supertypes) u chain (inheritedElement
              (p.withSupertypes d.name supertypes) (d.withSupertypes d.name supertypes))) ∧
      ((∀ t ∈ p.catalog.types, p.catalog.Above t d →
          inheritedElement (p.withSupertypes d.name supertypes)
            (t.withSupertypes d.name supertypes) = inheritedElement p t) →
        ∀ u chain text, Related Eq (resolve p u chain text)
          (resolve (p.withSupertypes d.name supertypes) u chain text)) ∧
      ((∀ s ∈ added, ∀ u, p.catalog.find? s = some u → ∀ v, p.catalog.Above u v →
          v.parameters = []) →
        ∀ t ∈ p.catalog.types, inheritedElement (p.withSupertypes d.name supertypes)
          (t.withSupertypes d.name supertypes) = inheritedElement p t) :=
  ⟨fun _ hbare hvoid hscalar hfind => h.resolve_declared hp hbare hvoid hscalar hfind,
    fun helement => h.related_resolve hp helement,
    fun hadded _ ht => h.inheritedElement_withSupertypes hp hadded ht⟩

def arrayList : TypeDecl :=
  { TypeDecl.named "java.util.ArrayList" .interface with
    parameters := ["E"], supertypes := ["java.util.Collection<E>"] }

def comparable : TypeDecl :=
  { TypeDecl.named "Comparable" .interface with parameters := ["T"] }

def cloneable : TypeDecl :=
  TypeDecl.named "Cloneable" .interface

def numbers : TypeDecl :=
  { TypeDecl.named "Numbers" .record with supertypes := ["java.util.ArrayList<int>"] }

def numbersTypes : List TypeDecl :=
  [arrayList, comparable, cloneable, numbers]

def numbersProject : Project :=
  Project.of (({} : Catalog).insertAll numbersTypes) {}

private theorem catalog_numbers : numbersProject.catalog = ({} : Catalog).insertAll numbersTypes :=
  rfl

private theorem types_numbers : numbersProject.catalog.types = numbersTypes := by
  rw [catalog_numbers]
  decide

private theorem regular_numbers : numbersProject.catalog.Regular := by
  have hown : ∀ t ∈ numbersTypes, numbersProject.catalog.byName? t.name = some t := by
    rw [catalog_numbers]
    decide
  have hnames : ∀ t ∈ numbersTypes, IsBare t.name ∧ t.shortName = shortName t.name := by
    decide
  constructor
  · exact fun t ht => hown t (types_numbers ▸ ht)
  · exact fun t ht => (hnames t (types_numbers ▸ ht)).1
  · exact fun t ht => (hnames t (types_numbers ▸ ht)).2
  · unfold PlainNames TypeText.Mentions
    rw [types_numbers]
    decide

private theorem find?_numbers :
    numbersProject.catalog.find? "java.util.ArrayList<int>" = some arrayList ∧
    numbersProject.catalog.find? "java.util.Collection<E>" = none ∧
    numbersProject.catalog.find? "Comparable<boolean>" = some comparable ∧
    numbersProject.catalog.find? "Cloneable" = some cloneable ∧
    numbersProject.catalog.find? "Numbers" = some numbers := by
  rw [catalog_numbers]
  decide

private theorem isCollection_numbers : numbersProject.isCollection numbers = true := by
  have hroot : "java.util.Collection" ∈ numbersProject.settings.collectionTypes := by decide
  have hmem : numbers ∈ numbersProject.catalog.types := by
    rw [types_numbers]
    simp [numbersTypes]
  have habove : numbersProject.catalog.Above numbers arrayList :=
    .single ⟨_, List.mem_cons_self, find?_numbers.1⟩
  refine List.any_eq_true.mpr ⟨_, hroot, (regular_numbers.inherits_iff hmem).mpr ?_⟩
  exact ⟨arrayList, habove, .inr (.inr ⟨_, List.mem_cons_self, by decide⟩)⟩

private theorem isMap_numbers : numbersProject.isMap numbers = false := by
  refine @Project.inheritsAny_eq_false _ _ _ [numbers, arrayList] ?_ ?_ List.mem_cons_self
  · intro v hv s hs w hw
    rcases List.mem_pair.mp hv with rfl | rfl
    · obtain rfl := List.mem_singleton.mp hs
      rw [find?_numbers.1] at hw
      cases hw
      exact List.mem_cons_of_mem _ List.mem_cons_self
    · obtain rfl := List.mem_singleton.mp hs
      rw [find?_numbers.2.1] at hw
      cases hw
  · have hsettings : numbersProject.settings = {} := rfl
    rw [hsettings]
    decide

/-- A new supertype in front of the list, a type without supertypes that no root is called by. -/
private theorem addsSupertypes_numbers {a : TypeDecl} {s : String}
    (hfind : numbersProject.catalog.find? s = some a) (hnil : a.supertypes = [])
    (hroots : ∀ r ∈ ({} : Settings).collectionTypes ++ ({} : Settings).mapTypes,
      ¬ Hits (rawName r) (rawName s) ∧ a.isNamed (rawName r) = false)
    (hs : s ≠ "java.util.ArrayList<int>") :
    numbersProject.AddsSupertypes numbers [s] [s, "java.util.ArrayList<int>"] where
  declared := by
    rw [types_numbers]
    simp [numbersTypes]
  collection := isCollection_numbers
  map := isMap_numbers
  top := by
    have hnot : numbers.name ∉ ({} : Settings).topTypes := by decide
    exact decide_eq_false hnot
  component := rfl
  kept := by
    rw [List.filter_cons_of_neg (by simp), List.filter_cons_of_pos (by simpa using hs.symm)]
    rfl
  unrooted r hr b hb := by
    obtain rfl := List.mem_singleton.mp hr
    refine ⟨(hroots b hb).1, fun w hw => ?_⟩
    rw [hfind] at hw
    cases hw
    rw [inherits_of_supertypes_eq_nil _ hnil]
    exact (hroots b hb).2
  plain _ _ _ hk := by cases hk

private theorem addsSupertypes_comparable :
    numbersProject.AddsSupertypes numbers ["Comparable<boolean>"]
    ["Comparable<boolean>", "java.util.ArrayList<int>"] :=
  addsSupertypes_numbers find?_numbers.2.2.1 rfl (by decide) (by decide)

private theorem addsSupertypes_cloneable : numbersProject.AddsSupertypes numbers ["Cloneable"]
    ["Cloneable", "java.util.ArrayList<int>"] :=
  addsSupertypes_numbers find?_numbers.2.2.2.1 rfl (by decide) (by decide)

private theorem inheritedElement_numbers : inheritedElement numbersProject numbers = "int" := by
  have hancestors : numbersProject.catalog.ancestors numbers = [(arrayList, [("E", "int")])] := by
    refine ancestors_of_top_supertype rfl find?_numbers.1 (by decide) ?_
    rw [catalog_numbers]
    decide
  rw [inheritedElement, hancestors]
  rfl

/-- The first ancestor has a value for its parameter, so the others are not asked. -/
private theorem inheritedElement_comparable : inheritedElement
    (numbersProject.withSupertypes "Numbers" ["Comparable<boolean>", "java.util.ArrayList<int>"])
    (numbers.withSupertypes "Numbers" ["Comparable<boolean>", "java.util.ArrayList<int>"]) =
      "boolean" := by
  let supertypes := ["Comparable<boolean>", "java.util.ArrayList<int>"]
  let c := (numbersProject.withSupertypes "Numbers" supertypes).catalog
  have hfind : c.find? (substitute [] "Comparable<boolean>") = some comparable := by
    rw [Project.find?_withSupertypes, substitute_nil, find?_numbers.2.2.1]
    rfl
  have hleft : comparable.name ∈ without "Numbers" (c.types.map (·.name)) := by
    have htypes : c.types = numbersTypes.map (·.withSupertypes "Numbers" supertypes) :=
      congrArg (List.map _) types_numbers
    rw [htypes]
    decide
  have hbound : bind comparable.parameters (arguments (substitute [] "Comparable<boolean>")) =
    [("T", "boolean")] := by decide
  have hfirst : ∃ others, c.ancestors (numbers.withSupertypes "Numbers" supertypes) =
      (comparable, [("T", "boolean")]) :: others := by
    change ∃ others, above c.find? (without "Numbers" (c.types.map (·.name)))
      [("Comparable<boolean>", []), ("java.util.ArrayList<int>", [])] = _ :: others
    rw [above_of_some hfind, if_pos hleft, hbound]
    exact ⟨_, rfl⟩
  obtain ⟨others, hothers⟩ := hfirst
  rw [inheritedElement, hothers]
  rfl

private theorem resolve_scalars {q : Project} (hscalars : q.scalars = Scalar.table {}) (u : Usage)
    (w : List Warning) :
    resolve q u [] "int" w = some (some (ofType .integer), w) ∧
      resolve q u [] "boolean" w = some (some (ofType .boolean), w) := by
  have hnamed : Scalar.named? q.scalars "int" = some .integer ∧
      Scalar.named? q.scalars "boolean" = some .boolean := by
    rw [hscalars]
    decide
  have hint : step q "int" = .settled (.plain .integer) :=
    @step_scalar q "int" none (by decide) .integer (by decide) hnamed.1
  have hboolean : step q "boolean" = .settled (.plain .boolean) :=
    @step_scalar q "boolean" none (by decide) .boolean (by decide) hnamed.2
  exact ⟨resolve_of_plain hint w, resolve_of_plain hboolean w⟩

private theorem plain_numbers : IsBare "Numbers" ∧ isVoid "Numbers" = false ∧
    Scalar.named? numbersProject.scalars "Numbers" = none := by
  have hscalars : numbersProject.scalars = Scalar.table {} := rfl
  rw [hscalars]
  exact ⟨by decide, by decide, by decide⟩

/-- A supertype without parameters leaves the list of numbers, and every other reference, as it
is. -/
theorem resolve_withSupertypes_cloneable :
    numbersProject.catalog.Regular ∧
      numbersProject.AddsSupertypes numbers ["Cloneable"]
        ["Cloneable", "java.util.ArrayList<int>"] ∧
      (∀ s ∈ ["Cloneable"], ∀ u, numbersProject.catalog.find? s = some u →
        ∀ v, numbersProject.catalog.Above u v → v.parameters = []) ∧
      (∀ t ∈ numbersProject.catalog.types, numbersProject.catalog.Above t numbers →
        inheritedElement
            (numbersProject.withSupertypes "Numbers" ["Cloneable", "java.util.ArrayList<int>"])
            (t.withSupertypes "Numbers" ["Cloneable", "java.util.ArrayList<int>"]) =
          inheritedElement numbersProject t) ∧
      (∀ u chain text, Related Eq (resolve numbersProject u chain text)
        (resolve
          (numbersProject.withSupertypes "Numbers" ["Cloneable", "java.util.ArrayList<int>"])
          u chain text)) ∧
      resolve numbersProject ⟨.response, .body⟩ [] "Numbers" [] =
        some (some (array (ofType .integer)), []) ∧
      resolve (numbersProject.withSupertypes "Numbers" ["Cloneable", "java.util.ArrayList<int>"])
          ⟨.response, .body⟩ [] "Numbers" [] = some (some (array (ofType .integer)), []) := by
  have hadded : ∀ s ∈ ["Cloneable"], ∀ u, numbersProject.catalog.find? s = some u →
      ∀ v, numbersProject.catalog.Above u v → v.parameters = [] := by
    intro s hs u hu v hv
    obtain rfl := List.mem_singleton.mp hs
    rw [find?_numbers.2.2.2.1] at hu
    cases hu
    rcases Relation.ReflTransGen.cases_head hv with rfl | ⟨_, ⟨_, hnone, _⟩, _⟩
    · rfl
    · cases hnone
  obtain ⟨hitems, hrelated, helement⟩ :=
    resolve_withSupertypes regular_numbers addsSupertypes_cloneable
  have hbelow := fun t ht (_ : numbersProject.catalog.Above t numbers) => helement hadded t ht
  obtain ⟨hbare, hvoid, hscalar⟩ := plain_numbers
  obtain ⟨hbefore, hafter⟩ :=
    hitems "Numbers" hbare hvoid hscalar find?_numbers.2.2.2.2 ⟨.response, .body⟩ []
  rw [inheritedElement_numbers] at hbefore
  rw [helement hadded numbers addsSupertypes_cloneable.declared, inheritedElement_numbers] at hafter
  refine ⟨regular_numbers, addsSupertypes_cloneable, hadded, hbelow, hrelated hbelow, ?_, ?_⟩
  · rw [hbefore]
    exact map_eq_some.mpr ⟨_, _, (resolve_scalars rfl _ _).1, rfl⟩
  · exact (congrFun hafter []).trans (map_eq_some.mpr ⟨_, _, (resolve_scalars rfl _ _).1, rfl⟩)

/-- What the numbers can be compared with is taken for what the list holds. -/
theorem comparable_settles_elements :
    numbersProject.catalog.Regular ∧
      numbersProject.AddsSupertypes numbers ["Comparable<boolean>"]
        ["Comparable<boolean>", "java.util.ArrayList<int>"] ∧
      resolve numbersProject ⟨.response, .body⟩ [] "Numbers" [] =
        some (some (array (ofType .integer)), []) ∧
      resolve (numbersProject.withSupertypes "Numbers"
          ["Comparable<boolean>", "java.util.ArrayList<int>"]) ⟨.response, .body⟩ [] "Numbers" [] =
        some (some (array (ofType .boolean)), []) := by
  obtain ⟨hbare, hvoid, hscalar⟩ := plain_numbers
  obtain ⟨hbefore, hafter⟩ := addsSupertypes_comparable.resolve_declared regular_numbers hbare hvoid
    hscalar find?_numbers.2.2.2.2 ⟨.response, .body⟩ []
  rw [inheritedElement_numbers] at hbefore
  have helement := inheritedElement_comparable
  refine ⟨regular_numbers, addsSupertypes_comparable, ?_, ?_⟩
  · rw [hbefore]
    exact map_eq_some.mpr ⟨_, _, (resolve_scalars rfl _ _).1, rfl⟩
  · refine (congrFun hafter []).trans ?_
    change (_ <$> resolve _ _ _ (inheritedElement (numbersProject.withSupertypes "Numbers" _)
      (numbers.withSupertypes "Numbers" _))) [] = _
    rw [helement]
    exact map_eq_some.mpr ⟨_, _, (resolve_scalars rfl _ _).2, rfl⟩

end Schema

end EndpointDocs

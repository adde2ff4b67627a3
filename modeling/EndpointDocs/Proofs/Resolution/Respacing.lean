import EndpointDocs.Proofs.Catalog.Search
import EndpointDocs.Proofs.Member.Texts
import EndpointDocs.Proofs.Resolution.Records
import EndpointDocs.Proofs.Shape.Respelling
import EndpointDocs.Proofs.TypeText.Respacing

namespace EndpointDocs

open TypeText TypeExpr Noting

variable {p : Project} {u : Usage} {t : TypeDecl} {a b : String}

namespace Catalog

def parameters (c : Catalog) : List String :=
  c.types.flatMap (·.parameters)

/-- All references between the types are expressions, and parameters stand for whole types there. -/
def IsolatesParameters (c : Catalog) : Prop :=
  ∀ t ∈ c.types, ∀ text ∈ t.references, IsolatedIn c.parameters text

variable {c : Catalog}

theorem mem_keys_bind {ps as : List String} {k : String} (h : k ∈ (bind ps as).keys) : k ∈ ps := by
  rcases OrderedMap.mem_keys_putAll.mp h with h | h
  · cases h
  · obtain ⟨e, he, rfl⟩ := List.mem_map.mp h
    exact (List.of_mem_zip he).1

private theorem mem_of_mem_bind {ps as : List String} {k v : String} (h : (k, v) ∈ bind ps as) :
    v ∈ as :=
  (List.of_mem_zip (OrderedMap.mem_of_mem_ofEntries h)).2

private theorem mem_parameters (ht : t ∈ c.types) {as : List String} {k : String}
    (hk : k ∈ (bind t.parameters as).keys) : k ∈ c.parameters :=
  List.mem_flatMap.mpr ⟨t, ht, mem_keys_bind hk⟩

/-- Binding the parameters of a type to what is written in a reference. -/
theorem isolatedIn_substitute_bind (ht : t ∈ c.types) {w s : String}
    (hw : IsolatedIn c.parameters w) (hs : IsolatedIn c.parameters s) :
    IsolatedIn c.parameters (substitute (bind t.parameters (arguments w)) s) :=
  hs.substitute (fun _ hk => mem_parameters ht hk) fun _ _ hv => hw.arguments _ (mem_of_mem_bind hv)

theorem IsolatesParameters.written (h : c.IsolatesParameters) (ht : t ∈ c.types) {w : String}
    (hw : Written c t w) : IsolatedIn c.parameters w := by
  induction hw with
  | own hs => exact h t ht _ (TypeDecl.mem_references_of_supertype hs)
  | above _ hfind hs ih =>
    have ha := mem_of_find? hfind
    exact isolatedIn_substitute_bind ha ih (h _ ha _ (TypeDecl.mem_references_of_supertype hs))

theorem IsolatesParameters.member (h : p.catalog.IsolatesParameters) (ht : t ∈ p.catalog.types)
    {m : Member} (hm : m ∈ Member.ofType p t) : IsolatedIn p.catalog.parameters m.typeText := by
  rcases Member.mem_ofType hm with hown | ⟨e, he, text, htext, heq⟩
  · exact h t ht _ hown
  · obtain ⟨w, hw, hfind, hbind⟩ := mem_ancestors he
    have hancestor := mem_of_find? hfind
    rw [heq, hbind]
    exact isolatedIn_substitute_bind hancestor (h.written ht hw) (h _ hancestor _ htext)

end Catalog

namespace Shape

private theorem forall₂_respaced {es : List TypeExpr} {ss ts : List String}
    (hs : ss.map squeeze = es.map tight) (ht : ts.map squeeze = es.map tight) :
    List.Forall₂ Respaced ss ts := by
  induction es generalizing ss ts with
  | nil =>
    rw [List.map_eq_nil_iff.mp hs, List.map_eq_nil_iff.mp ht]
    exact .nil
  | cons e es ih =>
    cases ss with
    | nil => cases hs
    | cons s ss =>
      cases ts with
      | nil => cases ht
      | cons t ts =>
        obtain ⟨hs, hss⟩ := List.cons.inj hs
        obtain ⟨ht, hts⟩ := List.cons.inj ht
        exact .cons ⟨e, hs, ht⟩ (ih hss hts)

private theorem step_respaced (h : Respaced a b) : Respelled Respaced (step p a) (step p b) := by
  obtain ⟨e, ha, hb⟩ := h
  cases e with
  | array e =>
    obtain ⟨x, hx, hxe⟩ := ha.component?_array
    obtain ⟨y, hy, hye⟩ := hb.component?_array
    rw [step_of_component? hx ha.ne_empty, step_of_component? hy hb.ne_empty]
    exact .list ⟨e, hxe, hye⟩
  | named n as =>
    have hname : rawName a = rawName b := ha.rawName_named.trans hb.rawName_named.symm
    have harguments : List.Forall₂ Respaced (arguments a) (arguments b) :=
      forall₂_respaced ha.arguments hb.arguments
    have hvoid : isVoid a = isVoid b := by rw [isVoid, isVoid, hname]
    have hscalar : Scalar.named? p.scalars a = Scalar.named? p.scalars b := by
      rw [Scalar.named?, Scalar.named?, hname]
    have hloose : Scalar.loose? p.scalars a = Scalar.loose? p.scalars b := by
      rw [Scalar.loose?, Scalar.loose?, hscalar, hname]
    have hfind : p.catalog.find? a = p.catalog.find? b := by
      rw [Catalog.find?, Catalog.find?, hname]
    rw [step_of_component?_eq_none ha.component?_named ha.ne_empty,
      step_of_component?_eq_none hb.component?_named hb.ne_empty, hvoid, hscalar, hloose, hfind]
    split
    · exact .settled _
    split
    · exact .settled _
    split
    · exact stepType_respelled harguments
    · exact .settled _

private theorem exists_step_respaced {x : Step a} (hstep : step p a = x) (h : Respaced a b) :
    ∃ y, step p b = y ∧ Respelled Respaced x y :=
  ⟨_, rfl, hstep ▸ step_respaced h⟩

/-- Spellings of a name show one name. -/
theorem rawName_of_respaced (h : Respaced a b) (hc : component? a = none) :
    rawName a = rawName b := by
  obtain ⟨e, ha, hb⟩ := h
  cases e with
  | array e =>
    obtain ⟨x, hx, -⟩ := ha.component?_array
    rw [hc] at hx
    cases hx
  | named n as => exact ha.rawName_named.trans hb.rawName_named.symm

private theorem component?_of_settled {s : Shape} (h : step p a = .settled s)
    (ha : Text.trim a ≠ "") : component? a = none := by
  cases hc : component? a with
  | none => rfl
  | some x =>
    rw [step_of_component? hc ha] at h
    cases h

/-- One shape, with spellings of the same arguments. -/
inductive Resembles (p : Project) : Shape → Shape → Prop
  | same (s : Shape) : Resembles p s s
  | list {s s' : Shape} (items : Resembles p s s') : Resembles p (.list s) (.list s')
  | map {s s' : Shape} (value : Resembles p s s') : Resembles p (.map s) (.map s')
  | members {name : String} {t : TypeDecl} {as bs : List String} (mem : t ∈ p.catalog.types)
      (arguments : List.Forall₂ Respaced as bs) :
      Resembles p (.members name t as) (.members name t bs)

private theorem Means.respaced {s : Shape} (hs : Means (step p) a s) (h : Respaced a b) :
    ∃ s', Means (step p) b s' ∧ Resembles p s s' := by
  have hne : Text.trim a ≠ "" := by
    obtain ⟨e, ha, -⟩ := h
    exact ha.ne_empty
  induction hs generalizing b with
  | @settled a s hstep =>
    obtain ⟨after, hb, hsteps⟩ := exists_step_respaced hstep h
    have hname := rawName_of_respaced h (component?_of_settled hstep hne)
    cases hsteps with
    | settled s => exact ⟨s, .settled hb, .same s⟩
    | @members t as bs harguments =>
      rw [← hname] at hb
      have ht := Catalog.mem_of_find? (step_members hstep).1
      exact ⟨_, .settled hb, .members ht harguments⟩
  | @list a items _ s hstep tail ih =>
    obtain ⟨after, hb, hsteps⟩ := exists_step_respaced hstep h
    cases hsteps with
    | list hitems =>
      obtain ⟨s', hs', hlike⟩ := ih hitems hitems.ne_empty
      exact ⟨_, .list hb hs', .list hlike⟩
  | @map a value _ s hstep tail ih =>
    obtain ⟨after, hb, hsteps⟩ := exists_step_respaced hstep h
    cases hsteps with
    | map hvalue =>
      obtain ⟨s', hs', hlike⟩ := ih hvalue hvalue.ne_empty
      exact ⟨_, .map hb hs', .map hlike⟩
  | @elements a owner items s hstep tail _ =>
    obtain ⟨after, hb, hsteps⟩ := exists_step_respaced hstep h
    cases hsteps with
    | elements => exact ⟨_, .elements hb tail, .list (.same s)⟩

private theorem ofText?_respaced (h : Respaced a b) :
    Option.Rel (Resembles p) (ofText? p a) (ofText? p b) := by
  cases ha : ofText? p a with
  | some s =>
    obtain ⟨s', hs', hlike⟩ := (ofText?_eq_some_iff.mp ha).respaced h
    rw [ofText?_eq_some_iff.mpr hs']
    exact .some hlike
  | none =>
    cases hb : ofText? p b with
    | none => exact .none
    | some s =>
      obtain ⟨s', hs', -⟩ := (ofText?_eq_some_iff.mp hb).respaced h.symm
      rw [ofText?_eq_some_iff.mpr hs'] at ha
      cases ha

end Shape

namespace Schema

open Shape

/-- Spellings of one expression get the same answer, and a scalar only if it is under one name. -/
def IgnoresSpacing (answer : String → Noting (Option Schema)) : Prop :=
  ∀ ⦃a b⦄, Respaced a b → answer a = answer b ∧
    Yields (answer a) fun found => ∀ s ∈ found, s.dataType.isScalar = true → rawName a = rawName b

private theorem dateFormat_of_rawName (h : rawName a = rawName b) (annotations : List Annotation)
    (carrier : Carrier) :
    DateFormat.find? p a annotations carrier = DateFormat.find? p b annotations carrier := by
  have hdate : DateFormat.isDate p a = DateFormat.isDate p b := by
    rw [DateFormat.isDate, DateFormat.isDate, Catalog.matchesAny, Catalog.matchesAny, h]
  have htype : DateFormat.ofType p.settings a carrier = DateFormat.ofType p.settings b carrier := by
    rw [DateFormat.ofType, DateFormat.ofType, h]
  rw [DateFormat.find?, DateFormat.find?, hdate, htype]

private theorem describe_of_rawName {s : Schema}
    (h : s.dataType.isScalar = true → rawName a = rawName b)
    (m : Member) : m.describe p u a s = m.describe p u b s := by
  have hstamp {r : Schema} (hr : r.dataType = s.dataType) :
      r.stampDate p a m.annotations u.carrier = r.stampDate p b m.annotations u.carrier := by
    unfold stampDate
    split
    · rfl
    · next hscalar =>
      rw [hr, Bool.or_eq_true, not_or] at hscalar
      rw [dateFormat_of_rawName (h (by simpa using hscalar.2))]
  simp only [Member.describe]
  exact congrArg (fun r => p.withMock r (m.doc.tag? "mock")) (hstamp rfl)

/-- A member has the same property whichever spellings are bound to the parameters of its owner. -/
theorem addMember_respaced {answer : String → Noting (Option Schema)}
    (hanswer : IgnoresSpacing answer) {ps as bs keys : List String} {m : Member}
    (hkeys : ∀ k ∈ ps, k ∈ keys) (hm : IsolatedIn keys m.typeText)
    (h : List.Forall₂ Respaced as bs) (override : Option TypeOverride)
    (properties : OrderedMap Schema) :
    addMember p u answer override (bind ps as) properties m =
      addMember p u answer override (bind ps bs) properties m := by
  unfold addMember
  split
  · rcases hm with hempty | ⟨e, hspelled, hisolates⟩
    · have hnone (b : Bindings) : substitute b m.typeText = "" := by rw [hempty]; rfl
      rw [hnone, hnone]
    · obtain ⟨b, hb, hb'⟩ := exists_bindings h ps
      have hbound (as : List String) : ∀ k ∈ (bind ps as).keys, k ∈ keys :=
        fun k hk => hkeys k (Catalog.mem_keys_bind hk)
      have hrespaced : Respaced (substitute (bind ps as) m.typeText)
          (substitute (bind ps bs) m.typeText) :=
        ⟨e.bound b, hspelled.substitute hb (hbound as) hisolates,
          hspelled.substitute hb' (hbound bs) hisolates⟩
      obtain ⟨heq, hscalar⟩ := hanswer hrespaced
      simp only [← heq]
      refine (hscalar.parallel.bind ?_).eq
      rintro found _ ⟨rfl, hfound⟩
      cases found with
      | none => exact parallel_pure rfl
      | some s =>
        refine parallel_pure ?_
        rw [describe_of_rawName (hfound s rfl)]
  · rfl

private theorem openType_respaced {deeper : Chain → String → Noting (Option Schema)}
    (hp : p.catalog.IsolatesParameters) (hdeeper : ∀ chain, IgnoresSpacing (deeper chain))
    (ht : t ∈ p.catalog.types) {as bs : List String} (h : List.Forall₂ Respaced as bs)
    (chain : Chain) (name : String) :
    openType deeper p u chain name t as = openType deeper p u chain name t bs := by
  unfold openType
  split
  · rfl
  · unfold propertiesOf
    congr 2
    funext taken
    refine foldlM_congr (fun properties m hm => ?_) taken
    exact addMember_respaced (hdeeper _) (fun k hk => List.mem_flatMap.mpr ⟨t, ht, hk⟩)
      (hp.member ht hm) h _ properties

private theorem ofShape_respaced {deeper : Chain → String → Noting (Option Schema)}
    (hp : p.catalog.IsolatesParameters) (hdeeper : ∀ chain, IgnoresSpacing (deeper chain))
    (chain : Chain) {s s' : Shape} (h : Resembles p s s') :
    ofShape (openType deeper p u chain) s = ofShape (openType deeper p u chain) s' := by
  induction h with
  | same s => rfl
  | list _ ih | map _ ih => rw [ofShape, ofShape, ih]
  | members ht harguments =>
    rw [ofShape, ofShape, openType_respaced hp hdeeper ht harguments]

/-- An array is no scalar. -/
theorem yields_array {deeper : Chain → String → Noting (Option Schema)} {chain : Chain}
    {items : String} (hc : component? a = some items) (ha : Text.trim a ≠ "") :
    Yields (resolveBy deeper p u chain a) fun found => ∀ s ∈ found, s.dataType = .array := by
  have hshape : ofText? p a = (ofText? p items).map .list := by
    rw [ofText?_eq, step_of_component? hc ha]
  rw [resolveBy, hshape]
  cases ofText? p items with
  | none => exact yields_endless _
  | some s =>
    refine (yields_true _).bind fun found _ => yields_pure ?_
    intro r hr
    cases hr
    rfl

private theorem ignoresSpacing_resolveBy {deeper : Chain → String → Noting (Option Schema)}
    (hp : p.catalog.IsolatesParameters) (hdeeper : ∀ chain, IgnoresSpacing (deeper chain))
    (chain : Chain) : IgnoresSpacing (resolveBy deeper p u chain) := by
  intro a b h
  constructor
  · have hshape := ofText?_respaced (p := p) h
    unfold resolveBy
    generalize Shape.ofText? p a = before at hshape
    generalize Shape.ofText? p b = after at hshape
    cases hshape with
    | none => rfl
    | some hlike => exact ofShape_respaced hp hdeeper chain hlike
  · cases hc : component? a with
    | none => exact fun _ _ _ _ _ _ _ => rawName_of_respaced h hc
    | some items =>
      have hne : Text.trim a ≠ "" := h.ne_empty
      intro w found v hfound s hs hscalar
      rw [yields_array hc hne hfound s hs] at hscalar
      cases hscalar

private theorem ignoresSpacing_resolveWithin (hp : p.catalog.IsolatesParameters) (room : Nat)
    (chain : Chain) : IgnoresSpacing (resolveWithin p u room chain) := by
  induction room generalizing chain with
  | zero =>
    refine ignoresSpacing_resolveBy hp (fun chain a b _ => ⟨rfl, ?_⟩) chain
    exact fun _ _ _ h => by cases h
  | succ room ih => exact ignoresSpacing_resolveBy hp ih chain

/-- All spellings of a type expression are read as that expression and resolved to the same schema:
white space next to commas and angle brackets, in front of `[]` and at both ends makes no
difference, as long as parameters stand for whole types wherever they are bound. -/
theorem resolve_respaced (hp : p.catalog.IsolatesParameters) (u : Usage) (chain : Chain)
    (ha : ∃ e : TypeExpr, e.SpelledBy a) (h : squeeze a = squeeze b) :
    (∃ e, TypeExpr.ofText? a = some e ∧ TypeExpr.ofText? b = some e) ∧
      resolve p u chain a = resolve p u chain b := by
  obtain ⟨e, ha⟩ := ha
  have hb : e.SpelledBy b := h.symm.trans ha
  exact ⟨⟨e, TypeExpr.ofText?_of_spelledBy ha, TypeExpr.ofText?_of_spelledBy hb⟩,
    (ignoresSpacing_resolveWithin hp _ chain ⟨e, ha, hb⟩).1⟩

/-- A type with a parameter and one field. -/
def holder (name text : String) : TypeDecl :=
  { name, shortName := shortName name, parameters := ["T"]
    fields := [{ name := "value", typeText := text }] }

def ofTypes (types : List TypeDecl) (settings : Settings) : Project :=
  Project.of (({} : Catalog).insertAll types) settings

def boxes : Project :=
  ofTypes [holder "Box" " Map < String,T [] >"] {}

/-- A name without arguments. -/
def plain (text : String) (h : (PlainName.of? text).isSome = true) : TypeExpr :=
  .named ((PlainName.of? text).get h) []

private theorem types_boxes : boxes.catalog.types = [holder "Box" " Map < String,T [] >"] := by
  have hcatalog : boxes.catalog = ({} : Catalog).insertAll [holder "Box" " Map < String,T [] >"] :=
    rfl
  rw [hcatalog]
  decide

private theorem isolatesParameters_boxes : boxes.catalog.IsolatesParameters := by
  have hparameters : boxes.catalog.parameters = ["T"] := by
    rw [Catalog.parameters, types_boxes]
    rfl
  have hother {n : PlainName} {as : List TypeExpr} (hn : ¬ Mentions n.text "T") :
      ∀ x ∈ ["T"], Mentions n.text x → x = n.text ∧ as = [] := by
    intro x hx hmentions
    obtain rfl := List.mem_singleton.mp hx
    exact absurd hmentions hn
  intro t ht text htext
  rw [types_boxes, List.mem_singleton] at ht
  subst ht
  obtain rfl : text = " Map < String,T [] >" := by
    simpa [holder, TypeDecl.references] using htext
  rw [hparameters]
  refine .inr ⟨.named ⟨"Map", by decide, by decide, by decide⟩
    [plain "String" (by decide), .array (plain "T" (by decide))], ?_, ?_⟩
  · unfold SpelledBy
    decide
  · refine .named (hother (by decide)) (List.forall_mem_cons.mpr ⟨?_, ?_⟩)
    · exact .named (hother (by decide)) (List.forall_mem_nil _)
    · refine List.forall_mem_singleton.mpr (.array (.named ?_ (List.forall_mem_nil _)))
      intro x hx _
      exact ⟨List.mem_singleton.mp hx, rfl⟩

/-- Both references are to a box of the same arrays. -/
theorem resolve_respaced_boxes :
    boxes.catalog.IsolatesParameters ∧ (∃ e : TypeExpr, e.SpelledBy "Box<String[]>") ∧
      squeeze "Box<String[]>" = squeeze " Box < String [] > " ∧
      (∃ e, TypeExpr.ofText? "Box<String[]>" = some e ∧
        TypeExpr.ofText? " Box < String [] > " = some e) ∧
      resolve boxes ⟨.response, .body⟩ [] "Box<String[]>" =
        resolve boxes ⟨.response, .body⟩ [] " Box < String [] > " := by
  have hspelled : ∃ e : TypeExpr, e.SpelledBy "Box<String[]>" :=
    ⟨.named ⟨"Box", by decide, by decide, by decide⟩ [.array (plain "String" (by decide))],
      spelledBy_of_text (by decide)⟩
  have hsame : squeeze "Box<String[]>" = squeeze " Box < String [] > " := by decide
  exact ⟨isolatesParameters_boxes, hspelled, hsame,
    resolve_respaced isolatesParameters_boxes _ [] hspelled hsame⟩

/-- A type whose parameter is given an argument, and one whose parameter is part of a longer
name. -/
def wrapTypes : List TypeDecl :=
  [holder "Wrap" "T<int>", holder "Mark" "T&"]

def wraps : Project :=
  ofTypes wrapTypes { scalars := [("byte[]", "string"), ("byte[]&", "string")] }

private theorem catalog_wraps : wraps.catalog = ({} : Catalog).insertAll wrapTypes :=
  rfl

private theorem isRecord_wraps (ht : t ∈ wrapTypes) : wraps.IsRecord t := by
  have hfound : ∀ v ∈ wrapTypes, wraps.catalog.find? v.name = some v := by
    rw [catalog_wraps]
    decide
  exact Project.isRecord_of_closed hfound (by decide) (by decide) (by decide) ht

def valueMember (text : String) : Member :=
  ⟨"value", text, [], {}, none⟩

private theorem members_holder {name text : String} (ht : holder name text ∈ wrapTypes) :
    Member.ofType wraps (holder name text) = [valueMember text] :=
  (isRecord_wraps ht).own_members rfl rfl

/-- The field of a type is documented by what its text says with the parameter replaced. -/
private theorem resolve_holder {name text reference argument : String} {d : DataType}
    (ht : holder name text ∈ wrapTypes) (hstep : step wraps reference =
      .settled (.members name (holder name text) [argument]))
    (hvalue : step wraps (substitute (bind ["T"] [argument]) text) = .settled (.plain d))
    (u : Usage) (w : List Warning) :
    ∃ s, resolve wraps u [] reference w = some (some (withProperties [("value", s)]), w) ∧
      s.dataType = (ofType d).dataType := by
  have hshown : (valueMember text).isShown none = true := rfl
  have hname : (valueMember text).documentedName none = "value" := rfl
  obtain ⟨s, hs, hentry⟩ : ∃ s : Schema, s.dataType = (ofType d).dataType ∧
      addedBy wraps u (resolve wraps u [name]) none (bind ["T"] [argument]) (valueMember text) w =
        some ([("value", s)], w) := by
    rw [← hname]
    exact ⟨_, Member.describe_dataType _ _ _ _ _, addedBy_of_plain hshown hvalue w⟩
  have hsee : seeTexts (holder name text) = [] := rfl
  have hown : memberEntries wraps u (resolve wraps u [name]) name (holder name text) [argument] w =
      some ([[("value", s)]], w) := by
    rw [memberEntries, members_holder ht]
    exact bind_eq_some.mpr ⟨_, w, hentry, rfl⟩
  refine ⟨s, (resolve_members hstep rfl).mpr ⟨[], _, w, ?_, hown, rfl⟩, hs⟩
  rw [hsee]
  rfl

private theorem step_holder {name text inner argument : String} (ht : holder name text ∈ wrapTypes)
    (harguments : arguments (withArguments name (some inner)) = [argument]) :
    step wraps (withArguments name (some inner)) =
      .settled (.members name (holder name text) [argument]) := by
  have hstep := (isRecord_wraps ht).step_withArguments (some inner)
  have hname : (holder name text).name = name := rfl
  rwa [hname, harguments] at hstep

private theorem step_spelled {d : DataType} {text : String} (hc : component? text = none)
    (hne : Text.trim text ≠ "") (hvoid : isVoid text = false)
    (hd : Scalar.named? wraps.scalars text = some d ∨
      Scalar.named? wraps.scalars text = none ∧ wraps.catalog.find? text = none ∧
        (Scalar.loose? wraps.scalars text).getD .object = d) :
    step wraps text = .settled (.plain d) := by
  rw [step_of_component?_eq_none hc hne, if_neg (by simp [hvoid])]
  rcases hd with hd | ⟨hnamed, hfind, hloose⟩
  · rw [hd]
  · rw [hnamed, hfind, hloose]

private theorem differ_holder {name text x y : String} {u : Usage}
    (ht : holder name text ∈ wrapTypes) (hr : arguments (withArguments name (some x)) = [x])
    (hx : step wraps (substitute (bind ["T"] [x]) text) = .settled (.plain .string))
    (hr' : arguments (withArguments name (some y)) = [y])
    (hy : step wraps (substitute (bind ["T"] [y]) text) = .settled (.plain .object)) :
    Differ (resolve wraps u [] (withArguments name (some x)))
      (resolve wraps u [] (withArguments name (some y))) := by
  intro v w
  obtain ⟨s, hs, htext⟩ := resolve_holder ht (step_holder ht hr) hx u v
  obtain ⟨s', hs', hobject⟩ := resolve_holder ht (step_holder ht hr') hy u w
  refine ⟨_, _, _, _, hs, hs', fun heq => ?_⟩
  simp only [withProperties, Option.some.injEq, Schema.mk.injEq, List.cons.injEq, Prod.mk.injEq,
    and_true, true_and] at heq
  rw [← heq, htext] at hobject
  cases hobject

private theorem spelled_wraps : ∀ text ∈ ["T<int>", "T&", "Wrap<byte[]>", "Mark<byte[]>"],
    ∃ e : TypeExpr, e.SpelledBy text := by
  simp only [List.forall_mem_cons]
  exact ⟨⟨.named ⟨"T", by decide, by decide, by decide⟩ [plain "int" (by decide)],
      spelledBy_of_text (by decide)⟩,
    ⟨plain "T&" (by decide), spelledBy_of_text (by decide)⟩,
    ⟨.named ⟨"Wrap", by decide, by decide, by decide⟩ [.array (plain "byte" (by decide))],
      spelledBy_of_text (by decide)⟩,
    ⟨.named ⟨"Mark", by decide, by decide, by decide⟩ [.array (plain "byte" (by decide))],
      spelledBy_of_text (by decide)⟩,
    List.forall_mem_nil _⟩

private theorem wellFormed_wraps : ∀ t ∈ wraps.catalog.types,
    IsWord t.name ∧ '[' ∉ t.name.toList ∧ ']' ∉ t.name.toList ∧
      ∀ text ∈ t.references, ∃ e : TypeExpr, e.SpelledBy text := by
  have htypes : wraps.catalog.types = wrapTypes := by
    rw [catalog_wraps]
    decide
  have hnames : ∀ t ∈ wrapTypes, IsWord t.name ∧ '[' ∉ t.name.toList ∧ ']' ∉ t.name.toList ∧
      ∀ text ∈ t.references, text ∈ ["T<int>", "T&", "Wrap<byte[]>", "Mark<byte[]>"] := by decide
  intro t ht
  obtain ⟨hword, hopen, hclose, htexts⟩ := hnames t (htypes ▸ ht)
  exact ⟨hword, hopen, hclose, fun text htext => spelled_wraps text (htexts text htext)⟩

/-- White space tells two arguments apart where parameters are given arguments, and where they are
part of longer names. -/
theorem spacing_matters :
    (∀ t ∈ wraps.catalog.types, IsWord t.name ∧ '[' ∉ t.name.toList ∧ ']' ∉ t.name.toList ∧
      ∀ text ∈ t.references, ∃ e : TypeExpr, e.SpelledBy text) ∧
    ((∃ e : TypeExpr, e.SpelledBy "Wrap<byte[]>") ∧
      squeeze "Wrap<byte[]>" = squeeze "Wrap<byte []>" ∧
      Differ (resolve wraps ⟨.response, .body⟩ [] "Wrap<byte[]>")
        (resolve wraps ⟨.response, .body⟩ [] "Wrap<byte []>")) ∧
    (∃ e : TypeExpr, e.SpelledBy "Mark<byte[]>") ∧
      squeeze "Mark<byte[]>" = squeeze "Mark<byte []>" ∧
      Differ (resolve wraps ⟨.response, .body⟩ [] "Mark<byte[]>")
        (resolve wraps ⟨.response, .body⟩ [] "Mark<byte []>") := by
  have hwrap : holder "Wrap" "T<int>" ∈ wrapTypes := List.mem_cons_self
  have hmark : holder "Mark" "T&" ∈ wrapTypes := List.mem_cons_of_mem _ List.mem_cons_self
  refine ⟨wellFormed_wraps, ⟨spelled_wraps _ (by simp), by decide, ?_⟩,
    spelled_wraps _ (by simp), by decide, ?_⟩
  · have hdiffer : Differ
        (resolve wraps ⟨.response, .body⟩ [] (withArguments "Wrap" (some "byte[]")))
        (resolve wraps ⟨.response, .body⟩ [] (withArguments "Wrap" (some "byte []"))) := by
      refine differ_holder hwrap (by decide) ?_ (by decide) ?_
      · exact step_spelled (by decide) (by decide) (by decide) (.inl (by decide))
      · exact step_spelled (by decide) (by decide) (by decide)
          (.inr ⟨by decide, by rw [catalog_wraps]; decide, by decide⟩)
    exact hdiffer
  · have hdiffer : Differ
        (resolve wraps ⟨.response, .body⟩ [] (withArguments "Mark" (some "byte[]")))
        (resolve wraps ⟨.response, .body⟩ [] (withArguments "Mark" (some "byte []"))) := by
      refine differ_holder hmark (by decide) ?_ (by decide) ?_
      · exact step_spelled (by decide) (by decide) (by decide) (.inl (by decide))
      · exact step_spelled (by decide) (by decide) (by decide)
          (.inr ⟨by decide, by rw [catalog_wraps]; decide, by decide⟩)
    exact hdiffer

end Schema

end EndpointDocs

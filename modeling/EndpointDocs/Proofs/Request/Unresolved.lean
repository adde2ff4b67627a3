import EndpointDocs.Proofs.Request.Parts

namespace EndpointDocs

open Noting

variable {p : Project} {u : Usage} {chain : Chain} {text : String}

/-- Whether neither the text nor its last segment says anything, so that an object without
properties stands for its values. -/
def Shape.IsUnknown (p : Project) (text : String) : Prop :=
  TypeText.component? text = none ∧ (Scalar.loose? p.scalars text).getD .object = .object

theorem TypeText.trim_ne_empty (h : isVoid text = false) : Text.trim text ≠ "" := by
  intro hempty
  have hchars : Chars.trim text.toList = [] := by
    rw [← Text.toList_trim, hempty]
    rfl
  have hname : rawName text = "" := by
    rw [rawName, splitChars, hchars]
    rfl
  simp [isVoid, hname] at h

theorem Shape.step_of_find?_eq_none (hcomponent : TypeText.component? text = none)
    (hvoid : TypeText.isVoid text = false) (hfind : p.catalog.find? text = none) :
    step p text = .settled (.plain ((Scalar.loose? p.scalars text).getD .object)) := by
  rw [step_of_component?_eq_none hcomponent (TypeText.trim_ne_empty hvoid), hvoid,
    if_neg Bool.false_ne_true, hfind]
  cases hnamed : Scalar.named? p.scalars text with
  | none => rfl
  | some d => rw [Scalar.loose?, hnamed, Option.some_or, Option.getD_some]

/-- The schema of a type that is in no catalog has no properties. -/
theorem Schema.resolve_of_find?_eq_none {found : Option Schema} {w w' : List Warning}
    (hvoid : TypeText.isVoid text = false) (hfind : p.catalog.find? text = none)
    (h : resolve p u chain text w = some (found, w')) :
    ∃ s, found = some s ∧ s.children = [] ∧ (s.isObject = true ↔ Shape.IsUnknown p text) := by
  cases hcomponent : TypeText.component? text with
  | some items =>
    rw [resolve_eq_resolveOnce, resolveOnce,
      Shape.step_of_component? hcomponent (TypeText.trim_ne_empty hvoid)] at h
    obtain ⟨found, v, _, h⟩ := bind_eq_some.mp h
    cases h
    refine ⟨_, rfl, rfl, ?_⟩
    simp [isObject, array, Shape.IsUnknown, hcomponent]
  | none =>
    rw [resolve_of_plain (Shape.step_of_find?_eq_none hcomponent hvoid hfind)] at h
    cases h
    refine ⟨_, rfl, ?_, ?_⟩
    · cases (Scalar.loose? p.scalars text).getD .object <;> rfl
    · rw [Shape.IsUnknown, and_iff_right hcomponent]
      cases (Scalar.loose? p.scalars text).getD .object <;> decide

namespace Request

variable {doc : DocComment} {m : MethodDecl} {method : HttpMethod} {param : ParameterDecl}
  {before after : List ParameterDecl} {own : List Schema}

open Annotations

/-- The first placement whose annotation the parameter has counts. -/
theorem place?_eq_find? (param : ParameterDecl) :
    place? param = (placements.find? fun e => has param.annotations e.1).map Prod.snd := by
  rw [place?, placement?]
  induction placements with
  | nil => rfl
  | cons e rest ih =>
    obtain ⟨name, location⟩ := e
    simp only [List.findSome?_cons, List.find?_cons, has]
    cases Annotations.find? param.annotations name with
    | none => exact ih
    | some a => rfl

private theorem place?_of_part (hpath : has param.annotations "PathVariable" = false)
    (hbody : has param.annotations "RequestBody" = false)
    (hplaced : has param.annotations "RequestParam" = true ∨
      has param.annotations "RequestPart" = true) :
    place? param =
      if has param.annotations "RequestParam" then some .query
      else if has param.annotations "RequestHeader" then some .header
      else some .form := by
  rw [place?_eq_find?]
  cases hquery : has param.annotations "RequestParam" <;>
    cases hheader : has param.annotations "RequestHeader" <;>
    simp_all [placements]

/-- Whether the parameter leaves nothing behind: nothing is known of its type, and it is placed in
the query or in the form. -/
def IsDropped (p : Project) (param : ParameterDecl) : Prop :=
  Shape.IsUnknown p param.typeText ∧
    (has param.annotations "RequestParam" = true ∨ has param.annotations "RequestHeader" = false)

theorem exists_mapM_append {β : Type} {f : ParameterDecl → Option β} {parts : List β}
    (h : (before ++ param :: after).mapM f = some parts) :
    ∃ first own rest, before.mapM f = some first ∧ f param = some own ∧ after.mapM f = some rest ∧
      parts = first ++ own :: rest := by
  rw [List.mapM_append, List.mapM_cons] at h
  obtain ⟨first, hfirst, h⟩ := Option.bind_eq_some_iff.mp h
  obtain ⟨more, hmore, h⟩ := Option.bind_eq_some_iff.mp h
  obtain ⟨own, hown, hmore⟩ := Option.bind_eq_some_iff.mp hmore
  obtain ⟨rest, hrest, hmore⟩ := Option.bind_eq_some_iff.mp hmore
  cases hmore
  cases h
  exact ⟨first, own, rest, hfirst, hown, hrest, rfl⟩

private theorem entriesFor_uncataloged {s : Schema} (doc : DocComment) (method : HttpMethod)
    (hpath : has param.annotations "PathVariable" = false)
    (hbody : has param.annotations "RequestBody" = false)
    (hplaced : has param.annotations "RequestParam" = true ∨
      has param.annotations "RequestPart" = true)
    (hchildren : s.children = [])
    (hunknown : s.isObject = true ↔ Shape.IsUnknown p param.typeText) :
    (IsDropped p param → entriesFor p doc method param s = []) ∧
      (¬IsDropped p param → entriesFor p doc method param s =
        [describe p doc param ((placement? param).map Prod.snd)
          (locate (place? param) s method) s]) := by
  have hflat : (locate (place? param) s method = .query ∨ locate (place? param) s method = .form) ↔
      (has param.annotations "RequestParam" = true ∨
        has param.annotations "RequestHeader" = false) := by
    rw [place?_of_part hpath hbody hplaced]
    cases has param.annotations "RequestParam" <;> cases has param.annotations "RequestHeader" <;>
      cases method.allowsBody <;> simp_all [locate]
  simp only [entriesFor, hchildren, List.map_nil, IsDropped, ← hunknown, ← hflat]
  constructor <;> intro h <;> simp_all

/-- Each parameter that is placed in the query or as a part, and whose type is in no catalog, is
documented by itself unless it is dropped, whatever stands around it. -/
theorem ofMethod_uncataloged (hps : m.parameters = before ++ param :: after)
    (hpath : has param.annotations "PathVariable" = false)
    (hbody : has param.annotations "RequestBody" = false)
    (hplaced : has param.annotations "RequestParam" = true ∨
      has param.annotations "RequestPart" = true)
    (hvoid : TypeText.isVoid param.typeText = false)
    (hfind : p.catalog.find? param.typeText = none) (method : HttpMethod) (w : List Warning) :
    ((∀ q ∈ m.parameters, Call.Ends p ⟨[], q.typeText⟩) →
        ∃ r w', ofMethod p m method w = some (r, w')) ∧
      ∀ r w', ofMethod p m method w = some (r, w') →
        ∃ first own rest, before.mapM (entriesOf? p m.doc method) = some first ∧
          after.mapM (entriesOf? p m.doc method) = some rest ∧
          r.parameters = (first.flatten ++ own ++ rest.flatten).filter (!inForm ·) ∧
          r.formFields = (first.flatten ++ own ++ rest.flatten).filter inForm ∧
          (IsDropped p param → own = []) ∧
          (¬IsDropped p param → ∃ s, schemaOf? p .parameter param = some (some s) ∧
            own = [describe p m.doc param ((placement? param).map Prod.snd)
              (locate (place? param) s method) s]) := by
  refine ⟨fun hends => ?_, fun r w' h => ?_⟩
  · obtain ⟨⟨r, w'⟩, h⟩ := answers_ofMethod method hends w
    exact ⟨r, w', h⟩
  obtain ⟨parts, body, hparts, _, rfl⟩ := exists_parts h
  rw [hps] at hparts
  obtain ⟨first, own, rest, hfirst, hown, hrest, rfl⟩ := exists_mapM_append hparts
  have hplace : place? param ≠ some .body ∧ (place? param).isNone = false := by
    rw [place?_of_part hpath hbody hplaced]
    cases has param.annotations "RequestParam" <;> cases has param.annotations "RequestHeader" <;>
      decide
  have hprovided : isProvided p param = false := by rw [isProvided, hplace.2, Bool.false_and]
  refine ⟨first, own, rest, hfirst, hrest, by simp, by simp, ?_⟩
  rw [entriesOf?, hprovided, decide_eq_false hplace.1] at hown
  obtain ⟨found, hfound, rfl⟩ := Option.map_eq_some_iff.mp hown
  obtain ⟨⟨_, v⟩, hresolved, rfl⟩ := Option.map_eq_some_iff.mp hfound
  obtain ⟨s, rfl, hchildren, hunknown⟩ := Schema.resolve_of_find?_eq_none hvoid hfind hresolved
  obtain ⟨hdropped, hkept⟩ := entriesFor_uncataloged m.doc method hpath hbody
    hplaced hchildren hunknown
  exact ⟨hdropped, fun hnot => ⟨s, hfound, hkept hnot⟩⟩

def queried (name typeText : String) : ParameterDecl :=
  { name, typeText, annotations := [{ name := "RequestParam" }] }

def searchBy (param : ParameterDecl) : MethodDecl :=
  { name := "search", parameters := [param] }

theorem ofMethod_searchBy (hplace : place? param ≠ some .body)
    (hown : entriesOf? p {} method param = some own) :
    ∃ w, ofMethod p (searchBy param) method [] = some (assemble method own none, w) := by
  have hparts : (searchBy param).parameters.mapM (entriesOf? p {} method) = some [own] := by
    simp [searchBy, hown]
  have hbody : bodyOf? p {} (searchBy param).parameters = some none := by
    simp [searchBy, bodyOf?, hplace]
  obtain ⟨w, h⟩ := ofMethod_of_parts (m := searchBy param) hparts hbody
  exact ⟨w, by simpa using h⟩

private theorem resolve_filter (u : Usage) :
    Schema.resolve (Project.of {} {}) u [] "Filter" [] = some (some .object, []) ∧
      Schema.resolve (Project.of {} {}) u [] "Filter[]" [] = some (some (.array .object), []) := by
  have hnone : Scalar.loose? (Project.of {} {}).scalars "Filter" = none := by decide
  have hstep : Shape.step (Project.of {} {}) "Filter" = .settled (.plain .object) := by
    rw [Shape.step_of_find?_eq_none (by decide) (by decide) (by decide),
      hnone]
    rfl
  have hfilter : Schema.resolve (Project.of {} {}) u [] "Filter" [] = some (some .object, []) :=
    Schema.resolve_of_plain hstep []
  exact ⟨hfilter, Schema.resolve_of_list (by decide) (by decide) hfilter⟩

/-- Of an array the items may be unknown. -/
theorem ofMethod_uncataloged_array :
    has (queried "filters" "Filter[]").annotations "PathVariable" = false ∧
      has (queried "filters" "Filter[]").annotations "RequestBody" = false ∧
      has (queried "filters" "Filter[]").annotations "RequestParam" = true ∧
      TypeText.isVoid "Filter[]" = false ∧ (Project.of {} {}).catalog.find? "Filter[]" = none ∧
      ¬IsDropped (Project.of {} {}) (queried "filters" "Filter[]") ∧
      ∃ r w', ofMethod (Project.of {} {}) (searchBy (queried "filters" "Filter[]")) .get [] =
          some (r, w') ∧ r.parameters.map (·.name) = ["filters"] ∧ r.formFields = [] := by
  have hpath : has (queried "filters" "Filter[]").annotations "PathVariable" = false := by decide
  have hbody : has (queried "filters" "Filter[]").annotations "RequestBody" = false := by decide
  have hquery : has (queried "filters" "Filter[]").annotations "RequestParam" = true := by decide
  have hvoid : TypeText.isVoid "Filter[]" = false := by decide
  have hfind : (Project.of {} {}).catalog.find? "Filter[]" = none := by decide
  have hkept : ¬IsDropped (Project.of {} {}) (queried "filters" "Filter[]") := by
    have hcomponent : TypeText.component? "Filter[]" ≠ none := by decide
    exact fun h => hcomponent h.1.1
  have hresolved := (resolve_filter ⟨.request, .parameter⟩).2
  have hps : (searchBy (queried "filters" "Filter[]")).parameters =
      [] ++ queried "filters" "Filter[]" :: [] := rfl
  obtain ⟨hfound, hparts⟩ :=
    ofMethod_uncataloged hps hpath hbody (.inl hquery) hvoid hfind .get []
  obtain ⟨r, w', h⟩ := hfound
    (List.forall_mem_singleton.mpr (Schema.ends_of_resolve (c := ⟨[], "Filter[]"⟩) hresolved))
  obtain ⟨first, own, rest, hfirst, hrest, hparameters, hfields, _, hown⟩ := hparts r w' h
  obtain ⟨s, hs, rfl⟩ := hown hkept
  obtain rfl : .array .object = s :=
    Option.some.inj (Option.some.inj ((congrArg (Option.map Prod.fst) hresolved).symm.trans hs))
  cases hfirst
  cases hrest
  refine ⟨hpath, hbody, hquery, hvoid, hfind, hkept, r, w', h, ?_, ?_⟩
  · rw [hparameters]
    decide
  · rw [hfields]
    exact List.filter_eq_nil_iff.mpr (by decide)

/-- Nothing is left of a parameter in the query whose type is unknown. -/
theorem unknown_parameter_disappears :
    has (queried "filter" "Filter").annotations "RequestParam" = true ∧
      has (queried "filter" "Filter").annotations "PathVariable" = false ∧
      has (queried "filter" "Filter").annotations "RequestBody" = false ∧
      TypeText.isVoid "Filter" = false ∧ (Project.of {} {}).catalog.find? "Filter" = none ∧
      ∃ r w', ofMethod (Project.of {} {}) (searchBy (queried "filter" "Filter")) .get [] =
          some (r, w') ∧ r.parameters = [] ∧ r.formFields = [] := by
  refine ⟨by decide, by decide, by decide, by decide, by decide, ?_⟩
  have hresolved := (resolve_filter ⟨.request, .parameter⟩).1
  have hschema : schemaOf? (Project.of {} {}) .parameter (queried "filter" "Filter") =
      some (some .object) := congrArg (Option.map Prod.fst) hresolved
  have hnone : entriesOf? (Project.of {} {}) {} .get (queried "filter" "Filter") = some [] :=
    entriesOf?_of_schema (by decide) (by decide) hschema
  obtain ⟨w', h⟩ := ofMethod_searchBy (by decide) hnone
  exact ⟨_, w', h, rfl, rfl⟩

end Request

end EndpointDocs

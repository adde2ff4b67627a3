import EndpointDocs.Proofs.Catalog.Search
import EndpointDocs.Proofs.Resolution.Calls

namespace EndpointDocs.Schema

open Shape Noting Relation

variable {p : Project} {u : Usage} {c d : Call} {w : List Warning}

/-- A call ends if every reference that it comes to has a shape. -/
theorem ends_of_means (h : ∀ d, Call.Reaches p c d → ∃ s, Means (step p) d.text s) :
    Call.Ends p c := by
  induction hroom : room p c.chain using Nat.strongRecOn generalizing c with
  | _ n ih =>
    obtain ⟨chain, text⟩ := c
    obtain ⟨s, hs⟩ := h ⟨chain, text⟩ .refl
    -- Below the same types the shape gets smaller, below one type more the room does.
    revert h
    refine hs.follow_induction (P := fun text =>
      (∀ d, Call.Reaches p ⟨chain, text⟩ d → ∃ s, Means (step p) d.text s) →
        Call.Ends p ⟨chain, text⟩) ?_
    intro a below h
    refine .intro fun d hd => ?_
    have hd' : ∀ e, Call.Reaches p d e → ∃ s, Means (step p) e.text s :=
      fun e he => h e (he.head hd)
    rcases nested_cases hd with ⟨next, hnext, rfl⟩ | ⟨t, ht, hc, _, reference, _, rfl⟩
    · exact below next hnext hd'
    · have hlt := room_push_lt (Catalog.mem_of_find? ht) hc
      exact ih _ (hroom ▸ hlt) hd' rfl

theorem answers_of_ends (h : Call.Ends p c) : Answers (resolve p u c.chain c.text) := by
  induction h with
  | intro _ ih =>
    rw [resolve_eq_resolveOnce]
    exact resolveOnce_answers ih

/-- A call that gave an answer had one for every call that it made. -/
theorem resolve_eq_some_of_reaches {r : Option Schema × List Warning}
    (h : resolve p u c.chain c.text w = some r) (hd : Call.Reaches p c d) :
    ∃ v s, resolve p u d.chain d.text v = some s := by
  induction hd using ReflTransGen.head_induction_on generalizing w r with
  | refl => exact ⟨w, r, h⟩
  | head hn _ ih =>
    rw [resolve_eq_resolveOnce] at h
    obtain ⟨v, s, hs⟩ := resolveOnce_eq_some h hn
    exact ih hs

private theorem means_of_resolve {r : Option Schema × List Warning}
    (h : resolve p u c.chain c.text w = some r) : ∃ s, Means (step p) c.text s := by
  rw [resolve_eq_resolveBy, resolveBy] at h
  cases hs : ofText? p c.text with
  | none =>
    rw [hs] at h
    cases h
  | some s => exact ⟨s, ofText?_eq_some_iff.mp hs⟩

/-- A call that gave an answer makes finitely many calls. -/
theorem ends_of_resolve {r : Option Schema × List Warning}
    (h : resolve p u c.chain c.text w = some r) : Call.Ends p c := by
  apply ends_of_means
  intro d hd
  obtain ⟨v, s, hs⟩ := resolve_eq_some_of_reaches h hd
  exact means_of_resolve hs

theorem exists_means_iff {text : String} :
    (∃ s, Means (step p) text s) ↔ CycleFree (step p) text := by
  constructor
  · rintro ⟨s, hs⟩
    exact hs.cycleFree
  · intro free
    cases h : ofText? p text with
    | none => exact absurd free (ofText?_eq_none_iff.mp h)
    | some s => exact ⟨s, ofText?_eq_some_iff.mp h⟩

/-- References that are followed are resolved by nested calls below the same types. -/
theorem reaches_of_follows {chain : Chain} {a b : String}
    (h : ReflTransGen (Follows (step p)) a b) : Call.Reaches p ⟨chain, a⟩ ⟨chain, b⟩ := by
  induction h with
  | refl => exact .refl
  | tail _ hnext ih => exact ih.tail (mem_nested_of_next hnext)

/-- Resolving a reference gives a result exactly if it makes finitely many calls, and that exactly
if no reference on the way is to a collection type whose own element leads back to it. -/
theorem resolve_isSome_iff (p : Project) (u : Usage) (chain : Chain) (text : String)
    (w : List Warning) :
    ((resolve p u chain text w).isSome ↔ Call.Ends p ⟨chain, text⟩) ∧
      (Call.Ends p ⟨chain, text⟩ ↔
        ∀ d, Call.Reaches p ⟨chain, text⟩ d → ¬ ComesBack (step p) d.text) := by
  refine ⟨⟨?_, ?_⟩, ⟨?_, ?_⟩⟩
  · intro h
    obtain ⟨r, hr⟩ := Option.isSome_iff_exists.mp h
    exact ends_of_resolve (c := ⟨chain, text⟩) hr
  · intro h
    obtain ⟨r, hr⟩ := answers_of_ends (u := u) h w
    exact Option.isSome_iff_exists.mpr ⟨r, hr⟩
  · intro h d hd
    obtain ⟨r, hr⟩ := answers_of_ends (u := u) h w
    obtain ⟨v, s, hs⟩ := resolve_eq_some_of_reaches (c := ⟨chain, text⟩) hr hd
    obtain ⟨shape, hshape⟩ := means_of_resolve hs
    exact hshape.not_comesBack
  · intro h
    apply ends_of_means
    intro d hd
    apply exists_means_iff.mpr
    intro b hb
    exact h ⟨d.chain, b⟩ (hd.trans (reaches_of_follows hb))

/-- An array that is declared as its own component. -/
def selfArray : TypeDecl :=
  { name := "Loop", shortName := "Loop", kind := .array, component := some "Loop" }

/-- The only type of the project is an array of itself. -/
def selfArrayProject : Project :=
  Project.of (({} : Catalog).insert selfArray) {}

private theorem step_selfArray : step selfArrayProject "Loop" = .elements "Loop" "Loop" := by
  have hscalar : Scalar.named? (Scalar.table {}) "Loop" = none := by decide
  have hnamed : Scalar.named? selfArrayProject.scalars "Loop" = none := hscalar
  have hcatalog : selfArrayProject.catalog = ({} : Catalog).insert selfArray := rfl
  have hfind : selfArrayProject.catalog.find? "Loop" = some selfArray := by
    rw [hcatalog]
    decide
  have hclass : selfArrayProject.classify selfArray = .array := rfl
  have hmap : selfArrayProject.isMap selfArray = false := by
    have hnames : ∀ b ∈ ({} : Settings).mapTypes,
        ¬ selfArray.isNamed (TypeText.rawName b) = true := by decide
    exact Catalog.inheritsAny_of_supertypes_eq_nil _ rfl hnames
  have hnot : selfArray.name ∉ ({} : Settings).topTypes := by simp [selfArray]
  have htop : selfArrayProject.isTop selfArray = false := decide_eq_false hnot
  have hcomponent : selfArray.component = some "Loop" := rfl
  rw [step_of_find? (by decide) (by decide) (by decide) hnamed hfind]
  exact (ReadingOf.component (by rw [hmap, htop]; rfl) hclass hcomponent).eq

/-- Resolving an array that is its own component does not end. -/
theorem resolve_selfArray :
    resolve selfArrayProject ⟨.response, .body⟩ [] "Loop" [] = none ∧
      ¬ Call.Ends selfArrayProject ⟨[], "Loop"⟩ := by
  have hback : ComesBack (step selfArrayProject) "Loop" := ⟨"Loop", "Loop", step_selfArray, .refl⟩
  have hnone : resolve selfArrayProject ⟨.response, .body⟩ [] "Loop" [] = none := by
    cases h : resolve selfArrayProject ⟨.response, .body⟩ [] "Loop" [] with
    | none => rfl
    | some r =>
      obtain ⟨s, hs⟩ := means_of_resolve (c := ⟨[], "Loop"⟩) h
      exact absurd hback hs.not_comesBack
  refine ⟨hnone, ?_⟩
  intro h
  obtain ⟨r, hr⟩ := answers_of_ends (u := ⟨.response, .body⟩) h []
  rw [hnone] at hr
  cases hr

end EndpointDocs.Schema

import Mathlib.Logic.Relation
import EndpointDocs.Proofs.TypeText.Parts
import EndpointDocs.Response

namespace EndpointDocs

open Relation TypeText

private theorem Catalog.matchesAny_rawName (c : Catalog) (entries : List String) (text : String) :
    c.matchesAny entries (rawName text) = c.matchesAny entries text := by
  rw [matchesAny, matchesAny, rawName_rawName]

namespace Response

variable {isCarrier : String → Bool} {text inner next wrapper : String}

/-- The first reference is that of a carrier, and the second one its first argument. -/
def Carries (isCarrier : String → Bool) (text inner : String) : Prop :=
  isCarrier text = true ∧ (arguments text).head? = some inner

instance (isCarrier : String → Bool) (text inner : String) :
    Decidable (Carries isCarrier text inner) :=
  inferInstanceAs (Decidable (_ ∧ _))

theorem Carries.length_lt (h : Carries isCarrier text inner) : inner.length < text.length :=
  arguments_length (List.mem_of_head? h.2)

/-- Carriers cannot be taken off for ever. -/
theorem wellFounded_carries (isCarrier : String → Bool) :
    WellFounded fun inner text => Carries isCarrier text inner :=
  Subrelation.wf Carries.length_lt (measure String.length).wf

theorem Carries.carried_eq (h : Carries isCarrier text inner) :
    carried isCarrier text = carried isCarrier inner := by
  obtain ⟨rest, hrest⟩ := List.head?_eq_some_iff.mp h.2
  rw [carried, if_pos h.1]
  split
  · next first others hfirst =>
    rw [hrest] at hfirst
    cases hfirst
    rfl
  · next hnone =>
    rw [hrest] at hnone
    cases hnone

private theorem carried_of_bare (h : ∀ next, ¬ Carries isCarrier text next) :
    carried isCarrier text = text := by
  rw [carried]
  split
  · next hcarrier =>
    split
    · next first others hfirst => exact absurd ⟨hcarrier, by rw [hfirst]; rfl⟩ (h first)
    · rfl
  · rfl

/-- What is left of a reference when carriers are taken off until none can be. -/
structure IsFreed (isCarrier : String → Bool) (text inner : String) : Prop where
  reached : ReflTransGen (Carries isCarrier) text inner
  bare : ∀ next, ¬ Carries isCarrier inner next

theorem IsFreed.carried_eq (h : IsFreed isCarrier text inner) : carried isCarrier text = inner := by
  obtain ⟨hreached, hbare⟩ := h
  induction hreached using ReflTransGen.head_induction_on with
  | refl => exact carried_of_bare hbare
  | head hstep _ ih => rw [hstep.carried_eq, ih]

theorem isFreed_carried (isCarrier : String → Bool) (text : String) :
    IsFreed isCarrier text (carried isCarrier text) := by
  induction text using (wellFounded_carries isCarrier).induction with
  | _ text ih =>
    by_cases h : ∃ inner, Carries isCarrier text inner
    · obtain ⟨inner, hstep⟩ := h
      have hinner := ih inner hstep
      rw [hstep.carried_eq]
      exact ⟨hinner.reached.head hstep, hinner.bare⟩
    · have hbare : ∀ next, ¬ Carries isCarrier text next := not_exists.mp h
      rw [carried_of_bare hbare]
      exact ⟨.refl, hbare⟩

theorem isFreed_iff : IsFreed isCarrier text inner ↔ inner = carried isCarrier text :=
  ⟨fun h => h.carried_eq.symm, fun h => h ▸ isFreed_carried isCarrier text⟩

/-- The reference gets shorter as soon as one carrier is taken off. -/
theorem transGen_carries_iff (h : ReflTransGen (Carries isCarrier) text inner) :
    TransGen (Carries isCarrier) text inner ↔ inner ≠ text := by
  constructor
  · rintro hsteps rfl
    have hlength : ∀ {a b : String}, TransGen (Carries isCarrier) a b → b.length < a.length := by
      intro a b hab
      induction hab with
      | single hstep => exact hstep.length_lt
      | tail _ hstep ih => exact hstep.length_lt.trans ih
    exact lt_irrefl _ (hlength hsteps)
  · exact fun hne => (reflTransGen_iff_eq_or_transGen.mp h).resolve_left hne

private theorem trim_of_reached (h : ReflTransGen (Carries isCarrier) text inner)
    (htext : Text.trim text = text) : Text.trim inner = inner := by
  cases h with
  | refl => exact htext
  | tail _ hstep =>
    have htrimmed := (isTrimmed_of_mem_arguments (List.mem_of_head? hstep.2)).2
    rw [Text.trim, htrimmed.trim, String.ofList_toList]

/-- The reference goes without the wrapper: it is binary, or one to the wrapper. -/
def GoesBare (wrapper text : String) : Prop :=
  text ∈ binaryTypes ∨ rawName text = wrapper ∨ shortName (rawName text) = shortName wrapper

instance (wrapper text : String) : Decidable (GoesBare wrapper text) :=
  inferInstanceAs (Decidable (_ ∨ _))

theorem wrapperFor?_of_none {s : Settings} (h : Text.contentOf? s.wrapperType = none)
    (text : String) : wrapperFor? s text = none := by
  rw [wrapperFor?, h]
  rfl

theorem wrapperFor?_of_some {s : Settings} (h : Text.contentOf? s.wrapperType = some wrapper)
    (text : String) :
    wrapperFor? s text = if GoesBare wrapper text then none else some wrapper := by
  rw [wrapperFor?, h]
  by_cases hbare : GoesBare wrapper text
  · rw [if_pos hbare]
    simpa [GoesBare, or_iff_not_imp_left] using hbare
  · rw [if_neg hbare]
    simpa [GoesBare, and_assoc] using hbare

variable {p : Project} {declared : String}

/-- Whether the settings have the type of this name taken off. -/
def unwraps (p : Project) (text : String) : Bool :=
  p.catalog.matchesAny p.settings.unwrappedTypes (rawName text)

theorem unwraps_eq (p : Project) :
    unwraps p = p.catalog.matchesAny p.settings.unwrappedTypes :=
  funext fun text => p.catalog.matchesAny_rawName p.settings.unwrappedTypes text

/-- What is left of the declared type without its carriers. -/
def innerType (p : Project) (declared : String) : String :=
  carried (unwraps p) (Text.trim declared)

private theorem isFreed_innerType (p : Project) (declared : String) :
    IsFreed (unwraps p) (Text.trim declared) (innerType p declared) :=
  isFreed_carried _ _

/-- The inner type, in the wrapper if it is all of the declared type and may not go without. -/
def dressed (p : Project) (declared : String) : String :=
  if innerType p declared ≠ Text.trim declared then innerType p declared
  else
    match wrapperFor? p.settings (innerType p declared) with
    | some wrapper => wrapper ++ "<" ++ innerType p declared ++ ">"
    | none => innerType p declared

theorem typeFor?_eq (p : Project) (declared : String) :
    typeFor? p declared =
      if isVoid declared = true ∨ isVoid (innerType p declared) = true then none
      else some (dressed p declared) := by
  rw [typeFor?, isVoid_trim, ← unwraps_eq, dressed]
  by_cases hdeclared : isVoid declared = true
  · rw [if_pos hdeclared, if_pos (Or.inl hdeclared)]
  · rw [if_neg hdeclared]
    by_cases hinner : isVoid (innerType p declared) = true
    · exact (if_pos hinner).trans (if_pos (Or.inr hinner)).symm
    · rw [if_neg (not_or.mpr ⟨hdeclared, hinner⟩)]
      refine (if_neg hinner).trans ?_
      rw [apply_ite some]
      congr 1
      change (match wrapperFor? p.settings (innerType p declared) with
        | some wrapper => some (wrapper ++ "<" ++ innerType p declared ++ ">")
        | none => some (innerType p declared)) = _
      cases wrapperFor? p.settings (innerType p declared) <;> rfl

private theorem dressed_of_none (h : wrapperFor? p.settings (innerType p declared) = none) :
    dressed p declared = innerType p declared := by
  rw [dressed, h]
  exact ite_self _

/-- The wrapper is put on once at most, and never where a carrier has been taken off. -/
theorem dressed_eq_iff :
    dressed p declared = text ↔
      (innerType p declared ≠ Text.trim declared ∨
          Text.contentOf? p.settings.wrapperType = none ∨
          ∃ wrapper ∈ Text.contentOf? p.settings.wrapperType,
            GoesBare wrapper (innerType p declared)) ∧ text = innerType p declared ∨
        ¬ innerType p declared ≠ Text.trim declared ∧
          ∃ wrapper ∈ Text.contentOf? p.settings.wrapperType,
            ¬ GoesBare wrapper (innerType p declared) ∧
              text = wrapper ++ "<" ++ innerType p declared ++ ">" := by
  by_cases hremoved : innerType p declared ≠ Text.trim declared
  · rw [dressed, if_pos hremoved]
    simp [hremoved, eq_comm]
  · cases hwrapper : Text.contentOf? p.settings.wrapperType with
    | none =>
      rw [dressed_of_none (wrapperFor?_of_none hwrapper _)]
      simp [eq_comm]
    | some wrapper =>
      rw [dressed, if_neg hremoved, wrapperFor?_of_some hwrapper]
      by_cases hbare : GoesBare wrapper (innerType p declared) <;> simp [hremoved, hbare, eq_comm]

theorem innerType_innerType (p : Project) (declared : String) :
    innerType p (innerType p declared) = innerType p declared := by
  have hfreed := isFreed_innerType p declared
  have htrimmed : Text.trim (innerType p declared) = innerType p declared :=
    trim_of_reached hfreed.reached (by rw [Text.trim, Text.toList_trim, Chars.trim_trim]; rfl)
  rw [innerType, htrimmed]
  exact carried_of_bare hfreed.bare

/-- Without a wrapper the type to document is documented as it is. -/
theorem typeFor?_idempotent (h : Text.contentOf? p.settings.wrapperType = none) :
    (typeFor? p declared).bind (typeFor? p) = typeFor? p declared := by
  have hdressed : ∀ text, dressed p text = innerType p text := fun text =>
    dressed_of_none (wrapperFor?_of_none h _)
  rw [typeFor?_eq p declared, hdressed]
  split_ifs with hvoid
  · rfl
  · obtain ⟨-, hinner⟩ := not_or.mp hvoid
    rw [Option.bind_some, typeFor?_eq, hdressed, innerType_innerType,
      if_neg (by simpa using hinner)]

/-- Carriers can be taken off a reference only so often, and what is left in the end is one type. If
this or the declared type is void, nothing is documented. Otherwise the type left is documented as
it is if a carrier has been taken off, if no wrapper is asked for or if it goes without the wrapper,
and in the wrapper if not. Without a wrapper the type to document is that of itself. -/
theorem typeFor?_spec (p : Project) (declared : String) :
    let wrapper? := Text.contentOf? p.settings.wrapperType
    WellFounded (fun inner text => Carries (unwraps p) text inner) ∧
      ∃ inner, (∀ text, IsFreed (unwraps p) (Text.trim declared) text ↔ text = inner) ∧
        (typeFor? p declared = none ↔ isVoid declared = true ∨ isVoid inner = true) ∧
        (∀ text, typeFor? p declared = some text ↔
          (isVoid declared = false ∧ isVoid inner = false) ∧
            ((TransGen (Carries (unwraps p)) (Text.trim declared) inner ∨ wrapper? = none ∨
                ∃ wrapper ∈ wrapper?, GoesBare wrapper inner) ∧ text = inner ∨
              ¬ TransGen (Carries (unwraps p)) (Text.trim declared) inner ∧
                ∃ wrapper ∈ wrapper?, ¬ GoesBare wrapper inner ∧
                  text = wrapper ++ "<" ++ inner ++ ">")) ∧
        (wrapper? = none → (typeFor? p declared).bind (typeFor? p) = typeFor? p declared) := by
  intro wrapper?
  have hfreed := isFreed_innerType p declared
  refine ⟨wellFounded_carries _, innerType p declared, fun text => isFreed_iff, ?_,
    fun text => ?_, typeFor?_idempotent⟩
  · rw [typeFor?_eq]
    split_ifs with hvoid <;> simp [hvoid]
  · rw [typeFor?_eq, transGen_carries_iff hfreed.reached, ← dressed_eq_iff]
    split_ifs with hvoid
    · refine iff_of_false id fun h => ?_
      simp [h.1] at hvoid
    · have hnonvoid : isVoid declared = false ∧ isVoid (innerType p declared) = false := by
        simpa using hvoid
      rw [Option.some_inj, and_iff_right hnonvoid]

/-- No types, and two carriers of other types. -/
def carrierProject : Project :=
  .of {} { unwrappedTypes := ["Result", "axum::Json"] }

/-- Both types around the user are taken off. -/
theorem typeFor?_spec_user :
    let declared := "Result<Json<User>, AppError>"
    typeFor? carrierProject declared = some "User" ∧
      Text.contentOf? carrierProject.settings.wrapperType = none ∧
      (typeFor? carrierProject declared).bind (typeFor? carrierProject) =
        typeFor? carrierProject declared := by
  intro declared
  obtain ⟨-, inner, hinner, -, hsome, hidempotent⟩ := typeFor?_spec carrierProject declared
  have hnone : Text.contentOf? carrierProject.settings.wrapperType = none := rfl
  have hfreed : IsFreed (unwraps carrierProject) (Text.trim declared) "User" := by
    have hresult : Carries (unwraps carrierProject) (Text.trim declared) "Json<User>" := by
      decide +kernel
    have hjson : Carries (unwraps carrierProject) "Json<User>" "User" := by decide
    have huser : unwraps carrierProject "User" = false := by decide +kernel
    exact ⟨.head hresult (.single hjson), fun next h => Bool.false_ne_true (huser.symm.trans h.1)⟩
  obtain rfl := (hinner "User").mp hfreed
  have hvoid : isVoid declared = false ∧ isVoid "User" = false := by decide
  exact ⟨(hsome "User").mpr ⟨hvoid, .inl ⟨.inr (.inl hnone), rfl⟩⟩, hnone, hidempotent hnone⟩

end Response

end EndpointDocs

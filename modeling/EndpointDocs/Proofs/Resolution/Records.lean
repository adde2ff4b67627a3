import EndpointDocs.Proofs.Resolution.Properties
import EndpointDocs.Proofs.Shape.Records

namespace EndpointDocs

open TypeText

namespace Schema

open Noting OrderedMap

variable {p : Project} {u : Usage} {name : String} {t : TypeDecl} {arguments : List String}
  {chain : Chain}

/-- No member of the type opens another type. -/
def HasPlainMembers (p : Project) (name : String) (t : TypeDecl) (arguments : List String) : Prop :=
  ∀ text ∈ memberTexts p name t arguments, ∃ d, Shape.step p text = .settled (.plain d)

/-- Scalars open nothing. -/
theorem hasPlainMembers_of_scalars (h : ∀ text ∈ memberTexts p name t arguments,
    (IsBare text ∧ text ∉ voidNames) ∧ (Scalar.named? p.scalars text).isSome = true) :
    HasPlainMembers p name t arguments := by
  intro text htext
  obtain ⟨⟨hbare, hvalue⟩, hscalar⟩ := h text htext
  obtain ⟨d, hd⟩ := Option.isSome_iff_exists.mp hscalar
  exact ⟨d, @Shape.step_scalar _ text none hbare d hvalue hd⟩

/-- A member whose type settles at once has its entry if it is shown. -/
theorem addedBy_of_plain {override : Option TypeOverride} {bindings : Bindings} {m : Member}
    {d : DataType} (hshown : m.isShown override = true)
    (hstep : Shape.step p (TypeText.substitute bindings m.typeText) = .settled (.plain d))
    (w : List Warning) :
    addedBy p u (Schema.resolve p u chain) override bindings m w =
      some ([(m.documentedName override, m.correct override
        (m.describe p u (TypeText.substitute bindings m.typeText) (ofType d)))], w) := by
  rw [addedBy, if_pos hshown]
  refine bind_eq_some.mpr ⟨_, w, resolve_of_plain hstep w, ?_⟩
  rw [← m.name_correct_describe override p u]
  rfl

/-- Members whose types settle at once are documented, each that is shown under its name. -/
theorem memberEntries_of_plain (h : HasPlainMembers p name t arguments) (w : List Warning) :
    ∃ own, memberEntries p u (Schema.resolve p u chain) name t arguments w = some (own, w) ∧
      own.flatten.map Prod.fst = memberNames p name t := by
  unfold memberEntries memberNames
  rw [HasPlainMembers, memberTexts, List.forall_mem_map] at h
  generalize p.settings.typeOverride? name (some t) = override at *
  generalize Member.ofType p t = members at *
  induction members with
  | nil => exact ⟨[], rfl, rfl⟩
  | cons m members ih =>
    rw [List.mapM_cons]
    rw [List.filter_cons] at h ⊢
    cases hshown : m.isShown override with
    | false =>
      rw [hshown] at h
      obtain ⟨own, hown, hkeys⟩ := ih h
      refine ⟨[] :: own, ?_, hkeys⟩
      refine bind_eq_some.mpr ⟨[], w, ?_, bind_eq_some.mpr ⟨own, w, hown, rfl⟩⟩
      rw [addedBy, hshown]
      rfl
    | true =>
      rw [hshown] at h
      obtain ⟨⟨d, hd⟩, h⟩ := List.forall_mem_cons.mp h
      obtain ⟨own, hown, hkeys⟩ := ih h
      refine ⟨_, bind_eq_some.mpr ⟨_, w, addedBy_of_plain hshown hd w,
        bind_eq_some.mpr ⟨own, w, hown, rfl⟩⟩, ?_⟩
      rw [List.flatten_cons, List.map_append, hkeys]
      rfl

/-- Where the types of all members settle at once, there is a property for each entry that is taken
over and for each member. -/
theorem resolve_of_plain_members {text : String} {taken : List (List (String × Schema))}
    {w w' : List Warning} (hstep : Shape.step p text = .settled (.members name t arguments))
    (hchain : chain.has t.name = false)
    (htaken : (seeTexts t).mapM (takenBy p (Schema.resolve p u (chain.push t.name)) name t) w =
      some (taken, w'))
    (h : HasPlainMembers p name t arguments) :
    ∃ m, Schema.resolve p u chain text w = some (some (withProperties m), w') ∧
      ∀ k, k ∈ OrderedMap.keys m ↔ k ∈ taken.flatten.map Prod.fst ∨ k ∈ memberNames p name t := by
  obtain ⟨own, hown, hkeys⟩ :=
    @memberEntries_of_plain p u name t arguments (chain.push t.name) h w'
  refine ⟨_, (resolve_members hstep hchain).mpr ⟨taken, own, w', htaken, hown, rfl⟩, fun k => ?_⟩
  rw [ofEntries, mem_keys_putAll, List.map_append, List.mem_append, hkeys]
  simp [OrderedMap.keys]

/-- The properties of a record that refers to one other record. -/
theorem resolve_of_see {target : TypeDecl} {reference : String} (ht : p.IsRecord t)
    (htarget : p.IsRecord target) (hother : target.name ≠ t.name)
    (hsee : seeTexts t = [reference]) (hrelated : related? p t reference = some target)
    (hlast : seeTexts target = [])
    (h : ∀ s ∈ [t, target], HasPlainMembers p s.name s []) (u : Usage) (w : List Warning) :
    ∃ m, Schema.resolve p u [] t.name w = some (some (withProperties m), w) ∧
      ∀ k, k ∈ OrderedMap.keys m ↔
        k ∈ memberNames p target.name target ∨ k ∈ memberNames p t.name t := by
  have hclosed : Chain.has [t.name] target.name = false := by simpa [Chain.has] using hother
  let below (name : String) := Schema.resolve p u (Chain.push [t.name] name)
  have hnone : (seeTexts target).mapM (takenBy p (below target.name) target.name target) w =
      some ([], w) := by
    rw [hlast]
    rfl
  obtain ⟨seen, hseen, hkeys⟩ :=
    resolve_of_plain_members htarget.step hclosed hnone (h target (by simp))
  have htaken : (seeTexts t).mapM (takenBy p (Schema.resolve p u [t.name]) t.name t) w =
      some ([seen], w) := by
    rw [hsee, List.mapM_cons, List.mapM_nil, takenBy, hrelated]
    exact bind_eq_some.mpr ⟨seen, w, bind_eq_some.mpr ⟨_, w, hseen, rfl⟩, rfl⟩
  obtain ⟨m, hm, hall⟩ := resolve_of_plain_members ht.step rfl htaken (h t (by simp))
  refine ⟨m, hm, fun k => ?_⟩
  have hseen_iff : k ∈ OrderedMap.keys seen ↔ k ∈ memberNames p target.name target := by
    simpa using hkeys k
  rw [hall, ← hseen_iff]
  simp [OrderedMap.keys]

end Schema

end EndpointDocs

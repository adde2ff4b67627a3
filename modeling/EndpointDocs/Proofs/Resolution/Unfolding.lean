import EndpointDocs.Proofs.Noting
import EndpointDocs.Proofs.Shape.Following

namespace EndpointDocs.Schema

open Shape Noting

variable {p : Project} {u : Usage} {chain : Chain} {text : String}

theorem room_push_lt {t : TypeDecl} (ht : t ∈ p.catalog.types) (h : chain.has t.name = false) :
    room p (chain.push t.name) < room p chain := by
  have hsub : (p.catalog.types.filter fun s => !(chain.push t.name).has s.name) =
      (p.catalog.types.filter fun s => !chain.has s.name).filter fun s => s.name ≠ t.name := by
    rw [List.filter_filter]
    apply List.filter_congr
    intro s _
    by_cases hs : s.name = t.name <;> simp [Chain.has, Chain.push, hs]
  unfold room
  rw [hsub]
  apply List.length_filter_lt_length_iff_exists.mpr
  exact ⟨t, List.mem_filter.mpr ⟨ht, by simp [h]⟩, by simp⟩

/-- A shape is made from what is made of the types of the catalog. -/
theorem ofShape_congr {f g : String → TypeDecl → List String → Noting Schema} {s : Shape}
    (hs : Means (step p) text s)
    (h : ∀ name, ∀ t ∈ p.catalog.types, ∀ arguments, f name t arguments = g name t arguments) :
    ofShape f s = ofShape g s := by
  induction hs with
  | settled step =>
    rcases step_settled step with rfl | ⟨d, rfl⟩ | ⟨d, values, _, rfl⟩ | ⟨t, ht, rfl⟩
    · rfl
    · rfl
    · rfl
    · rw [ofShape, ofShape, h _ t (Catalog.mem_of_find? ht)]
  | list _ _ ih | map _ _ ih | elements _ _ ih => rw [ofShape, ofShape, ih]

/-- Two shapes made of related results are related, if the results for the types to be opened are
and lists and maps of related results are. -/
theorem related_ofShape {R : Schema → Schema → Prop}
    {f g : String → TypeDecl → List String → Noting Schema} {s : Shape} (hself : ∀ s, R s s)
    (harray : ∀ i j, R i j → R (array i) (array j)) (hmap : ∀ i j, R i j → R (mapOf i) (mapOf j))
    (hs : Means (step p) text s)
    (h : ∀ text name t arguments, step p text = .settled (.members name t arguments) →
      Related R (f name t arguments) (g name t arguments)) :
    Related (Option.Rel R) (ofShape f s) (ofShape g s) := by
  induction hs with
  | @settled text _ hstep =>
    rcases step_settled hstep with rfl | ⟨d, rfl⟩ | ⟨d, values, _, rfl⟩ | ⟨t, ht, rfl⟩
    · exact related_pure .none
    · exact related_pure (.some (hself _))
    · exact related_pure (.some (hself _))
    · exact (h _ _ t _ hstep).bind fun _ _ hopened => related_pure (.some hopened)
  | list _ _ ih | elements _ _ ih =>
    refine ih.bind fun a b hfound => related_pure (.some (harray _ _ ?_))
    cases hfound with
    | none => exact hself object
    | some hfound => exact hfound
  | map _ _ ih =>
    refine ih.bind fun a b hfound => related_pure (.some ?_)
    cases hfound with
    | none => exact hself object
    | some hfound => exact hmap _ _ hfound

private theorem resolveBy_congr {f g : Chain → String → Noting (Option Schema)}
    (h : ∀ t ∈ p.catalog.types, chain.has t.name = false →
      f (chain.push t.name) = g (chain.push t.name)) :
    resolveBy f p u chain text = resolveBy g p u chain text := by
  unfold resolveBy
  split
  · rfl
  · next shape hshape =>
    apply ofShape_congr (ofText?_eq_some_iff.mp hshape)
    intro name t ht arguments
    unfold openType
    split
    · rfl
    · next hc => rw [h t ht (by simpa using hc)]

/-- Without room no type is opened. -/
theorem resolveBy_of_full (h : room p chain = 0) (f g : Chain → String → Noting (Option Schema)) :
    resolveBy f p u chain text = resolveBy g p u chain text := by
  apply resolveBy_congr
  intro t ht hc
  have hlt := room_push_lt ht hc
  omega

/-- Room that is not needed changes nothing. -/
theorem resolveWithin_eq {n m : Nat} (hn : room p chain ≤ n) (hm : room p chain ≤ m) :
    resolveWithin p u n chain text = resolveWithin p u m chain text := by
  induction n generalizing m chain text with
  | zero => cases m <;> exact resolveBy_of_full (Nat.le_zero.mp hn) _ _
  | succ n ih =>
    cases m with
    | zero => exact resolveBy_of_full (Nat.le_zero.mp hm) _ _
    | succ m =>
      apply resolveBy_congr
      intro t ht hc
      have hlt := room_push_lt ht hc
      funext reference
      exact ih (by omega) (by omega)

/-- Room for all types of the catalog is enough below every chain. -/
theorem resolve_eq_resolveWithin (chain : Chain) (text : String) :
    resolve p u chain text = resolveWithin p u p.catalog.types.length chain text :=
  resolveWithin_eq (Nat.le_refl _) (List.length_filter_le _ _)

/-- The types below those in the chain are resolved as everything else is. -/
theorem resolve_eq_resolveBy :
    resolve p u chain text = resolveBy (resolve p u) p u chain text := by
  unfold resolve
  cases hroom : room p chain with
  | zero => exact resolveBy_of_full hroom _ _
  | succ n =>
    apply resolveBy_congr
    intro t ht hc
    have hlt := room_push_lt ht hc
    funext reference
    exact resolveWithin_eq (by omega) (Nat.le_refl _)

/-- One step of resolving a reference, with the answers for the references that it leads to. -/
def resolveOnce (answer : Chain → String → Noting (Option Schema)) (p : Project) (u : Usage)
    (chain : Chain) (text : String) : Noting (Option Schema) :=
  match step p text with
  | .settled s => ofShape (openType answer p u chain) s
  | .list items _ | .elements _ items => do
    return some (array ((← answer chain items).getD object))
  | .map value _ => do return some (((← answer chain value).map mapOf).getD object)

/-- The room that bounds how many types are opened below each other is never used up, so resolving a
reference is one step on the answers for the references that it leads to. -/
theorem resolve_eq_resolveOnce :
    resolve p u chain text = resolveOnce (resolve p u) p u chain text := by
  rw [resolve_eq_resolveBy, resolveBy, ofText?_eq, resolveOnce]
  cases step p text with
  | settled s => rfl
  | list items _ | map items _ | elements _ items =>
    simp only
    rw [@resolve_eq_resolveBy p u chain items, resolveBy]
    cases ofText? p items <;> rfl

theorem resolve_of_plain {d : DataType} (h : step p text = .settled (.plain d))
    (w : List Warning) : resolve p u chain text w = some (some (Schema.ofType d), w) := by
  rw [resolve_eq_resolveOnce, resolveOnce, h]
  rfl

theorem resolve_of_known {d : DataType} {values : Option (List KnownValue)}
    (h : step p text = .settled (.known d values)) (w : List Warning) :
    resolve p u chain text w = some (some { scalar d with values }, w) := by
  rw [resolve_eq_resolveOnce, resolveOnce, h]
  rfl

theorem resolve_of_list {items : String} {s : Schema} {v w : List Warning}
    (hc : TypeText.component? text = some items) (ht : Text.trim text ≠ "")
    (hitems : resolve p u chain items w = some (some s, v)) :
    resolve p u chain text w = some (some (array s), v) := by
  rw [resolve_eq_resolveOnce, resolveOnce, step_of_component? hc ht]
  exact bind_eq_some.mpr ⟨some s, v, hitems, rfl⟩

end EndpointDocs.Schema

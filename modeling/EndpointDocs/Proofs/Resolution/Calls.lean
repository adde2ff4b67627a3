import Mathlib.Tactic.ByContra
import EndpointDocs.Proofs.Resolution.Unfolding

namespace EndpointDocs

/-- A reference to be resolved below the types that are open. -/
structure Call where
  chain : Chain
  text : String
  deriving DecidableEq

namespace Schema

open Shape Noting

variable {p : Project} {u : Usage}

/-- The types whose properties the `see` tags of a type take over. -/
def seenTypes (p : Project) (t : TypeDecl) : List TypeDecl :=
  ((t.doc.tagsNamed "see").filterMap fun tag => Text.content? tag.value).filterMap (related? p t)

/-- The references to the types of the members that are shown, with the parameters bound. -/
def memberTexts (p : Project) (name : String) (t : TypeDecl) (arguments : List String) :
    List String :=
  ((Member.ofType p t).filter (·.isShown (p.settings.typeOverride? name (some t)))).map fun m =>
    TypeText.substitute (TypeText.bind t.parameters arguments) m.typeText

/-- All references that are resolved for the properties of a type. -/
def references (p : Project) (name : String) (t : TypeDecl) (arguments : List String) :
    List String :=
  (seenTypes p t).map (·.name) ++ memberTexts p name t arguments

end Schema

namespace Call

open Shape Schema

/-- The calls that one step of resolving makes, in order. -/
def nested (p : Project) (c : Call) : List Call :=
  match step p c.text with
  | .settled (.members name t arguments) =>
    if c.chain.has t.name then []
    else (references p name t arguments).map fun text => ⟨c.chain.push t.name, text⟩
  | .settled _ => []
  | .list items _ | .map items _ | .elements _ items => [⟨c.chain, items⟩]

/-- A call makes another one, directly or through others. -/
def Reaches (p : Project) : Call → Call → Prop :=
  Relation.ReflTransGen fun c d => d ∈ c.nested p

/-- A call makes finitely many calls, directly or through others. -/
inductive Ends (p : Project) : Call → Prop
  | intro {c : Call} (below : ∀ d ∈ c.nested p, Ends p d) : Ends p c

end Call

namespace Schema

open Shape Noting

variable {p : Project} {u : Usage} {f g : String → Noting (Option Schema)} {name : String}
  {t : TypeDecl} {arguments : List String}

private theorem seen_congr (h : ∀ s ∈ seenTypes p t, f s.name = g s.name) :
    seen p f name t = seen p g name t := by
  apply foldlM_congr
  intro properties reference hr
  split
  · rfl
  · next target ht => rw [h target (List.mem_filterMap.mpr ⟨reference, hr, ht⟩)]

private theorem addMember_congr {bindings : TypeText.Bindings} {override : Option TypeOverride}
    {m : Member} (h : m.isShown override →
      f (TypeText.substitute bindings m.typeText) = g (TypeText.substitute bindings m.typeText))
    (properties : OrderedMap Schema) :
    addMember p u f override bindings properties m =
      addMember p u g override bindings properties m := by
  unfold addMember
  split
  · next hm => simp only [h hm]
  · rfl

private theorem propertiesOf_congr (h : ∀ text ∈ references p name t arguments, f text = g text) :
    propertiesOf p u f name t arguments = propertiesOf p u g name t arguments := by
  unfold propertiesOf
  rw [seen_congr fun s hs => h _ (List.mem_append_left _ (List.mem_map_of_mem hs))]
  congr 1
  funext taken
  apply foldlM_congr
  intro properties m hm
  apply addMember_congr
  intro hshown
  apply h
  apply List.mem_append_right
  exact List.mem_map_of_mem (List.mem_filter.mpr ⟨hm, hshown⟩)

private theorem seen_answers (h : ∀ s ∈ seenTypes p t, Answers (f s.name)) :
    Answers (seen p f name t) := by
  apply answers_foldlM
  intro properties reference hr
  split
  · exact fun w => ⟨_, rfl⟩
  · next target ht =>
    exact (h target (List.mem_filterMap.mpr ⟨reference, hr, ht⟩)).bind fun _ => answers_pure _

private theorem propertiesOf_answers
    (h : ∀ text ∈ references p name t arguments, Answers (f text)) :
    Answers (propertiesOf p u f name t arguments) := by
  refine (seen_answers fun s hs => h _ (List.mem_append_left _ (List.mem_map_of_mem hs))).bind ?_
  intro taken
  apply answers_foldlM
  intro properties m hm
  unfold addMember
  split
  · next hshown =>
    refine Answers.bind (h _ (List.mem_append_right _ ?_)) ?_
    · exact List.mem_map_of_mem (List.mem_filter.mpr ⟨hm, hshown⟩)
    · intro found
      cases found <;> exact answers_pure _
  · exact answers_pure _

/-- Properties that were collected have taken an answer for every reference. -/
theorem propertiesOf_eq_some {w : List Warning} {r : OrderedMap Schema × List Warning}
    (h : propertiesOf p u f name t arguments w = some r) {text : String}
    (ht : text ∈ references p name t arguments) : ∃ v s, f text v = some s := by
  obtain ⟨taken, v, hseen, hmembers⟩ := bind_eq_some.mp h
  rcases List.mem_append.mp ht with ht | ht
  · obtain ⟨target, htarget, rfl⟩ := List.mem_map.mp ht
    obtain ⟨reference, hr, hrel⟩ := List.mem_filterMap.mp htarget
    obtain ⟨properties, v', s, hs⟩ := foldlM_step_eq_some hseen hr
    rw [hrel] at hs
    obtain ⟨found, v'', hf, _⟩ := bind_eq_some.mp hs
    exact ⟨v', _, hf⟩
  · obtain ⟨m, hm, rfl⟩ := List.mem_map.mp ht
    obtain ⟨hm, hshown⟩ := List.mem_filter.mp hm
    obtain ⟨properties, v', s, hs⟩ := foldlM_step_eq_some hmembers hm
    rw [addMember, if_pos hshown] at hs
    obtain ⟨found, v'', hf, _⟩ := bind_eq_some.mp hs
    exact ⟨v', _, hf⟩

section Once

variable {f g : Chain → String → Noting (Option Schema)} {c d : Call}

theorem nested_of_members {name : String} {t : TypeDecl} {arguments : List String}
    (h : step p c.text = .settled (.members name t arguments)) (hc : c.chain.has t.name = false) :
    c.nested p =
      (references p name t arguments).map fun text => ⟨c.chain.push t.name, text⟩ := by
  simp [Call.nested, h, hc]

theorem mem_nested_of_next {chain : Chain} {text next : String}
    (h : (step p text).next? = some next) : ⟨chain, next⟩ ∈ Call.nested p ⟨chain, text⟩ := by
  unfold Call.nested
  unfold Step.next? at h
  split at h <;> simp_all

/-- A call of a step stays below the same types, at the reference that comes next, or it is made
below one type more, at one of the references of that type. -/
theorem nested_cases (h : d ∈ c.nested p) :
    (∃ next, (step p c.text).next? = some next ∧ d = ⟨c.chain, next⟩) ∨
      ∃ t, p.catalog.find? c.text = some t ∧ c.chain.has t.name = false ∧
        step p c.text =
          .settled (.members (TypeText.rawName c.text) t (TypeText.arguments c.text)) ∧
        ∃ text ∈ references p (TypeText.rawName c.text) t (TypeText.arguments c.text),
          d = ⟨c.chain.push t.name, text⟩ := by
  cases hstep : step p c.text with
  | settled s =>
    rcases step_settled hstep with rfl | ⟨e, rfl⟩ | ⟨e, values, _, rfl⟩ | ⟨t, ht, rfl⟩
    · simp [Call.nested, hstep] at h
    · simp [Call.nested, hstep] at h
    · simp [Call.nested, hstep] at h
    · cases hc : c.chain.has t.name with
      | true => simp [Call.nested, hstep, hc] at h
      | false =>
        rw [nested_of_members hstep hc] at h
        obtain ⟨text, htext, rfl⟩ := List.mem_map.mp h
        exact .inr ⟨t, ht, hc, rfl, text, htext, rfl⟩
  | list items _ | map items _ | elements _ items =>
    exact .inl ⟨items, rfl, by simpa [Call.nested, hstep] using h⟩

theorem resolveOnce_congr (h : ∀ d ∈ c.nested p, f d.chain d.text = g d.chain d.text) :
    resolveOnce f p u c.chain c.text = resolveOnce g p u c.chain c.text := by
  unfold resolveOnce
  cases hstep : step p c.text with
  | settled s =>
    rcases step_settled hstep with rfl | ⟨d, rfl⟩ | ⟨d, values, _, rfl⟩ | ⟨t, _, rfl⟩
    · simp only [ofShape]
    · simp only [ofShape]
    · simp only [ofShape]
    · simp only [ofShape, openType]
      split
      · rfl
      · next hc =>
        rw [nested_of_members hstep (by simpa using hc)] at h
        rw [propertiesOf_congr fun text ht => h _ (List.mem_map_of_mem ht)]
  | list items _ | map items _ | elements _ items =>
    have hitems : f c.chain items = g c.chain items :=
      h ⟨c.chain, items⟩ (by simp [Call.nested, hstep])
    simp only [hitems]

theorem resolveOnce_answers (h : ∀ d ∈ c.nested p, Answers (f d.chain d.text)) :
    Answers (resolveOnce f p u c.chain c.text) := by
  unfold resolveOnce
  cases hstep : step p c.text with
  | settled s =>
    rcases step_settled hstep with rfl | ⟨d, rfl⟩ | ⟨d, values, _, rfl⟩ | ⟨t, _, rfl⟩
    · exact answers_pure _
    · exact answers_pure _
    · exact answers_pure _
    · simp only [ofShape, openType]
      split
      · exact answers_pure _
      · next hc =>
        rw [nested_of_members hstep (by simpa using hc)] at h
        refine Answers.bind (Answers.map ?_ _) fun _ => answers_pure _
        exact propertiesOf_answers fun text ht => h _ (List.mem_map_of_mem ht)
  | list items _ | map items _ | elements _ items =>
    exact (h ⟨c.chain, items⟩ (by simp [Call.nested, hstep])).bind fun _ => answers_pure _

/-- A step that gave an answer has taken one for every nested call. -/
theorem resolveOnce_eq_some {w : List Warning} {r : Option Schema × List Warning}
    (h : resolveOnce f p u c.chain c.text w = some r) (hd : d ∈ c.nested p) :
    ∃ v s, f d.chain d.text v = some s := by
  rcases nested_cases hd with ⟨next, hnext, rfl⟩ | ⟨t, _, hc, hstep, text, htext, rfl⟩
  · unfold resolveOnce at h
    cases hstep : step p c.text with
    | settled s => simp [hstep, Step.next?] at hnext
    | list items _ | map items _ | elements _ items =>
      obtain rfl : items = next := by simpa [hstep, Step.next?] using hnext
      rw [hstep] at h
      obtain ⟨found, v, hf, _⟩ := bind_eq_some.mp h
      exact ⟨w, _, hf⟩
  · rw [resolveOnce, hstep] at h
    obtain ⟨s, v, hs, _⟩ := bind_eq_some.mp h
    rw [openType, hc] at hs
    obtain ⟨properties, v', hp, _⟩ := map_eq_some.mp hs
    exact propertiesOf_eq_some hp htext

/-- No answer for one call, the given ones for all others. -/
def refuse (f : Chain → String → Noting (Option Schema)) (d : Call) :
    Chain → String → Noting (Option Schema) :=
  fun chain text => if d = ⟨chain, text⟩ then Noting.endless else f chain text

/-- One step of resolving `c` asks for the answer to `d`: without that one it has none. -/
def Asks (p : Project) (u : Usage) (c d : Call) : Prop :=
  ∃ f w r, resolveOnce f p u c.chain c.text w = some r ∧
    resolveOnce (refuse f d) p u c.chain c.text w = none

/-- The nested calls are just those that are asked for. -/
theorem asks_iff : Asks p u c d ↔ d ∈ c.nested p := by
  constructor
  · rintro ⟨f, w, r, hr, hnone⟩
    by_contra hd
    have heq : resolveOnce (refuse f d) p u c.chain c.text = resolveOnce f p u c.chain c.text := by
      apply resolveOnce_congr
      intro e he
      have hne : d ≠ e := fun h => hd (h ▸ he)
      exact if_neg hne
    rw [heq, hr] at hnone
    cases hnone
  · intro hd
    obtain ⟨r, hr⟩ := resolveOnce_answers (p := p) (u := u) (c := c)
      (f := fun _ _ => pure none) (fun _ _ => answers_pure _) []
    refine ⟨_, [], r, hr, ?_⟩
    cases h : resolveOnce (refuse (fun _ _ => pure none) d) p u c.chain c.text [] with
    | none => rfl
    | some s =>
      obtain ⟨v, s, hs⟩ := resolveOnce_eq_some h hd
      simp [refuse, Noting.endless] at hs

end Once

end Schema

end EndpointDocs

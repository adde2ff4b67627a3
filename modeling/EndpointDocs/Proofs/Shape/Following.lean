import Mathlib.Logic.Relation
import EndpointDocs.Proofs.Catalog.Finding
import EndpointDocs.Proofs.Shape.Steps

namespace EndpointDocs.Shape

open Relation

/-- The reference from whose shape the shape of a reference is made. -/
def Step.next? {text : String} : Step text → Option String
  | .settled _ => none
  | .list items _ | .map items _ | .elements _ items => some items

variable {look : (text : String) → Step text}

/-- The shape of the first reference is made from that of the second. -/
def Follows (look : (text : String) → Step text) (a b : String) : Prop :=
  (look a).next? = some b

/-- The shape that a reference has. -/
inductive Means (look : (text : String) → Step text) : String → Shape → Prop
  | settled {text : String} {s : Shape} (step : look text = .settled s) : Means look text s
  | list {text items : String} {shorter : items.length < text.length} {s : Shape}
      (step : look text = .list items shorter) (tail : Means look items s) :
      Means look text (.list s)
  | map {text value : String} {shorter : value.length < text.length} {s : Shape}
      (step : look text = .map value shorter) (tail : Means look value s) :
      Means look text (.map s)
  | elements {text owner items : String} {s : Shape} (step : look text = .elements owner items)
      (tail : Means look items s) : Means look text (.list s)

/-- A type settles its elements in one way only. -/
def SettlesElements (look : (text : String) → Step text) : Prop :=
  ∀ ⦃a b owner i j⦄, look a = .elements owner i → look b = .elements owner j → i = j

theorem follows_unique {a b c : String} (hb : Follows look a b) (hc : Follows look a c) :
    b = c :=
  Option.some.inj (hb.symm.trans hc)

private theorem means_of_follow {left : List String} {text : String} {s : Shape}
    (h : follow look left text = some s) : Means look text s := by
  induction left, text using follow.induct look generalizing s with
  | case1 left text t step =>
    rw [follow, step] at h
    cases h
    exact .settled step
  | case2 left text items shorter step ih =>
    rw [follow, step] at h
    obtain ⟨t, ht, rfl⟩ := Option.map_eq_some_iff.mp h
    exact .list step (ih ht)
  | case3 left text value shorter step ih =>
    rw [follow, step] at h
    obtain ⟨t, ht, rfl⟩ := Option.map_eq_some_iff.mp h
    exact .map step (ih ht)
  | case4 left text owner items step mem ih =>
    rw [follow, step] at h
    simp only [if_pos mem] at h
    obtain ⟨t, ht, rfl⟩ := Option.map_eq_some_iff.mp h
    exact .elements step (ih ht)
  | case5 left text owner items step mem =>
    rw [follow, step] at h
    simp [mem] at h

theorem Means.unique {text : String} {s t : Shape} (hs : Means look text s)
    (ht : Means look text t) : s = t := by
  induction hs generalizing t with
  | settled step => cases ht <;> simp_all
  | list step _ ih | map step _ ih | elements step _ ih =>
    cases ht <;> simp_all
    exact ih ‹_›

private theorem Means.follow_next {text next : String} {s : Shape} (h : Means look text s)
    (hn : Follows look text next) : ∃ t, Means look next t := by
  cases h with
  | settled step => simp [Follows, Step.next?, step] at hn
  | @list _ items _ _ step tail | @map _ items _ _ step tail | @elements _ _ items _ step tail =>
    have hnext : items = next := by simpa [Follows, Step.next?, step] using hn
    exact ⟨_, hnext ▸ tail⟩

/-- What holds of a reference once it holds of the one that comes next holds of every reference
that has a shape. -/
theorem Means.follow_induction {P : String → Prop} {text : String} {s : Shape}
    (h : Means look text s) (hP : ∀ a, (∀ b, Follows look a b → P b) → P a) : P text := by
  induction h with
  | @settled text s step =>
    apply hP text
    intro b hb
    simp [Follows, Step.next?, step] at hb
  | @list text items _ _ step _ ih | @map text items _ _ step _ ih
  | @elements text _ items _ step _ ih =>
    apply hP text
    intro b hb
    have hnext : items = b := by simpa [Follows, Step.next?, step] using hb
    exact hnext ▸ ih

private theorem cycle_next {a b : String} (h : TransGen (Follows look) a a)
    (hb : Follows look a b) : TransGen (Follows look) b b := by
  obtain ⟨c, hc, back⟩ := TransGen.head'_iff.mp h
  have heq : c = b := follows_unique hc hb
  subst heq
  exact TransGen.tail' back hb

/-- Following a reference that has a shape does not come back to it. -/
theorem Means.not_cycle {text : String} {s : Shape} (h : Means look text s) :
    ¬ TransGen (Follows look) text text := by
  induction h with
  | settled step =>
    intro cycle
    obtain ⟨b, hb, _⟩ := TransGen.head'_iff.mp cycle
    simp [Follows, Step.next?, step] at hb
  | list step tail ih | map step tail ih | elements step tail ih =>
    exact fun cycle => ih (cycle_next cycle (by simp [Follows, Step.next?, step]))

/-- The element that a collection type settles for a reference to it leads back to the reference. -/
def ComesBack (look : (text : String) → Step text) (text : String) : Prop :=
  ∃ owner items, look text = .elements owner items ∧ ReflTransGen (Follows look) items text

theorem Means.not_comesBack {text : String} {s : Shape} (h : Means look text s) :
    ¬ ComesBack look text := by
  rintro ⟨owner, items, step, back⟩
  exact h.not_cycle (TransGen.head' (by simp [Follows, Step.next?, step]) back)

/-- A reference from which following never comes back to where it was. -/
def CycleFree (look : (text : String) → Step text) (text : String) : Prop :=
  ∀ b, ReflTransGen (Follows look) text b → ¬ ComesBack look b

theorem CycleFree.next {a b : String} (h : CycleFree look a) (hb : Follows look a b) :
    CycleFree look b :=
  fun c hc => h c (hc.head hb)

theorem Means.cycleFree {text : String} {s : Shape} (h : Means look text s) :
    CycleFree look text := by
  intro b hb
  induction hb using ReflTransGen.head_induction_on generalizing s with
  | refl => exact h.not_comesBack
  | head hn _ ih =>
    obtain ⟨t, ht⟩ := h.follow_next hn
    exact ih ht

/-- Each collection type that may not be followed any more has been followed on the way here. -/
def Passed (look : (text : String) → Step text) (left : List String) (text : String) : Prop :=
  ∀ ⦃a owner items⦄, look a = .elements owner items → owner ∉ left →
    ReflTransGen (Follows look) items text

theorem Passed.tail {left : List String} {text next : String} (h : Passed look left text)
    (hn : Follows look text next) : Passed look left next :=
  fun _ _ _ step mem => (h step mem).tail hn

theorem Passed.without {left : List String} {text owner items : String}
    (hs : SettlesElements look) (h : Passed look left text)
    (step : look text = .elements owner items) :
    Passed look (Catalog.without owner left) items := by
  intro a other others stepA mem
  by_cases heq : other = owner
  · subst heq
    rw [hs stepA step]
  · have hleft : other ∉ left := by
      intro hin
      exact mem (List.mem_filter.mpr ⟨hin, by simpa using heq⟩)
    exact (h stepA hleft).tail (by simp [Follows, Step.next?, step])

/-- Where no shape is found, following has come to a collection type for the second time. -/
theorem not_cycleFree_of_follow {left : List String} {text : String} (hs : SettlesElements look)
    (hp : Passed look left text) (h : follow look left text = none) :
    ¬ CycleFree look text := by
  induction left, text using follow.induct look with
  | case1 left text t step =>
    rw [follow, step] at h
    cases h
  | case2 left text items shorter step ih =>
    rw [follow, step] at h
    have hn : Follows look text items := by simp [Follows, Step.next?, step]
    exact fun free => ih (hp.tail hn) (Option.map_eq_none_iff.mp h) (free.next hn)
  | case3 left text value shorter step ih =>
    rw [follow, step] at h
    have hn : Follows look text value := by simp [Follows, Step.next?, step]
    exact fun free => ih (hp.tail hn) (Option.map_eq_none_iff.mp h) (free.next hn)
  | case4 left text owner items step mem ih =>
    rw [follow, step] at h
    simp only [if_pos mem] at h
    have hn : Follows look text items := by simp [Follows, Step.next?, step]
    exact fun free => ih (hp.without hs step) (Option.map_eq_none_iff.mp h) (free.next hn)
  | case5 left text owner items step mem =>
    exact fun free => free text .refl ⟨owner, items, step, hp step mem⟩

variable {p : Project} {text : String}

/-- Every search gives the same type for the same full name. -/
theorem settlesElements_step (p : Project) : SettlesElements (step p) := by
  intro a b owner i j ha hb
  obtain ⟨t, ht, hown, rfl⟩ := step_elements ha
  obtain ⟨u, hu, hown', rfl⟩ := step_elements hb
  rw [Catalog.eq_of_find? ht hu (hown.symm.trans hown')]

private theorem passed_start (p : Project) (text : String) :
    Passed (step p) (p.catalog.types.map (·.name)) text := by
  intro a owner items h mem
  obtain ⟨t, ht, rfl, _⟩ := step_elements h
  exact absurd (List.mem_map_of_mem (Catalog.mem_of_find? ht)) mem

theorem ofText?_eq_some_iff {s : Shape} : ofText? p text = some s ↔ Means (step p) text s := by
  constructor
  · exact means_of_follow
  · intro h
    cases hf : ofText? p text with
    | none =>
      have free := h.cycleFree
      exact absurd free (not_cycleFree_of_follow (settlesElements_step p) (passed_start p text) hf)
    | some t => rw [(means_of_follow hf).unique h]

/-- The shape of a reference is made from the shape of the one that it leads to. -/
theorem ofText?_eq : ofText? p text =
    match step p text with
    | .settled s => some s
    | .list items _ | .elements _ items => (ofText? p items).map .list
    | .map value _ => (ofText? p value).map .map := by
  apply Option.ext
  intro s
  rw [ofText?_eq_some_iff]
  constructor
  · intro h
    cases h with
    | settled step => rw [step]
    | list step tail | map step tail | elements step tail =>
      rw [step]
      simp [ofText?_eq_some_iff.mpr tail]
  · intro h
    cases hstep : step p text with
    | settled t =>
      rw [hstep] at h
      cases h
      exact .settled hstep
    | list items shorter =>
      rw [hstep] at h
      obtain ⟨t, ht, rfl⟩ := Option.map_eq_some_iff.mp h
      exact .list hstep (ofText?_eq_some_iff.mp ht)
    | map value shorter =>
      rw [hstep] at h
      obtain ⟨t, ht, rfl⟩ := Option.map_eq_some_iff.mp h
      exact .map hstep (ofText?_eq_some_iff.mp ht)
    | elements owner items =>
      rw [hstep] at h
      obtain ⟨t, ht, rfl⟩ := Option.map_eq_some_iff.mp h
      exact .elements hstep (ofText?_eq_some_iff.mp ht)

/-- A reference has no shape exactly where following it comes to one that leads back. -/
theorem ofText?_eq_none_iff : ofText? p text = none ↔ ¬ CycleFree (step p) text := by
  constructor
  · exact not_cycleFree_of_follow (settlesElements_step p) (passed_start p text)
  · intro h
    cases hf : ofText? p text with
    | none => rfl
    | some t => exact absurd (means_of_follow hf).cycleFree h

end EndpointDocs.Shape

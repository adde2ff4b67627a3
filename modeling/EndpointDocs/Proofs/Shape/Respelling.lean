import Mathlib.Data.List.Forall2
import EndpointDocs.Proofs.Shape.Following

namespace EndpointDocs.Shape

open TypeText

variable {p : Project} {t : TypeDecl} {a b : String} {R : String → String → Prop}

/-- The same is said by two references, each under its own name, and in place of every reference
that it leads to by a related one. -/
inductive Respelled (R : String → String → Prop) {a b : String} : Step a → Step b → Prop
  | settled (s : Shape) : Respelled R (.settled s) (.settled s)
  | members (t : TypeDecl) {as bs : List String} (arguments : List.Forall₂ R as bs) :
      Respelled R (.settled (.members (rawName a) t as)) (.settled (.members (rawName b) t bs))
  | list {items items' : String} {h h'} (related : R items items') :
      Respelled R (.list items h) (.list items' h')
  | map {value value' : String} {h h'} (related : R value value') :
      Respelled R (.map value h) (.map value' h')
  | elements (owner items : String) : Respelled R (.elements owner items) (.elements owner items)

private theorem exists_second {as bs : List String} {first value : String} {rest : List String}
    (h : List.Forall₂ R as bs) (has : as = first :: value :: rest) :
    ∃ first' value' rest', bs = first' :: value' :: rest' ∧ R value value' := by
  subst has
  obtain ⟨first', _, -, htail, rfl⟩ := List.forall₂_cons_left_iff.mp h
  obtain ⟨value', rest', hvalue, -, rfl⟩ := List.forall₂_cons_left_iff.mp htail
  exact ⟨first', value', rest', rfl, hvalue⟩

/-- Beyond the name only the arguments of a reference to a type matter. -/
theorem stepType_respelled (h : List.Forall₂ R (arguments a) (arguments b)) :
    Respelled R (stepType p a t) (stepType p b t) := by
  obtain ⟨s, hs⟩ : ∃ s, stepType p a t = s := ⟨_, rfl⟩
  rw [hs]
  cases stepType_eq_iff.mp hs with
  | file hclass =>
    rw [(ReadingOf.file hclass).eq]
    exact .settled _
  | anything hclass hloose hfew =>
    rw [(ReadingOf.anything hclass hloose (h.length_eq ▸ hfew)).eq]
    exact .settled _
  | map hclass hloose hgiven =>
    obtain ⟨first, value, rest, hb, hvalue⟩ := exists_second h hgiven
    have hreading : ReadingOf p b t (.map value (arguments_length (by simp [hb]))) :=
      .map hclass hloose hb
    rw [hreading.eq]
    exact .map hvalue
  | component hown hclass hholds =>
    rw [(ReadingOf.component hown hclass hholds).eq]
    exact .elements _ _
  | list hown hclass hholds hgiven =>
    rw [hgiven] at h
    obtain ⟨items, rest, hitems, -, hb⟩ := List.forall₂_cons_left_iff.mp h
    have hreading : ReadingOf p b t (.list items (arguments_length (by simp [hb]))) :=
      .list hown hclass hholds hb
    rw [hreading.eq]
    exact .list hitems
  | inherited hown hclass hholds hbare =>
    rw [hbare] at h
    rw [(ReadingOf.inherited hown hclass hholds (List.forall₂_nil_left_iff.mp h)).eq]
    exact .elements _ _
  | members hown hclass =>
    rw [(ReadingOf.members hown hclass).eq]
    exact .members t h
  | known hown hclass hscalar =>
    rw [(ReadingOf.known hown hclass hscalar).eq]
    exact .settled _

end EndpointDocs.Shape

import Mathlib.Data.List.TakeDrop
import EndpointDocs.DocComment

namespace EndpointDocs.DocComment

variable {d other : DocComment} {t : DocTag} {name : String}

theorem hasTag_eq_false_iff : d.hasTag name = false ↔ d.tagsNamed name = [] := by
  simp [hasTag, tagsNamed]

/-- One step of a merge. -/
def addMissing (d : DocComment) (t : DocTag) : DocComment :=
  if d.hasTag t.name then d else { d with tags := d.tags ++ [t] }

theorem mergeMissing_eq (d other : DocComment) :
    d.mergeMissing other =
      other.tags.foldl addMissing ⟨if d.text = "" then other.text else d.text, d.tags⟩ :=
  rfl

private theorem text_addMissing (d : DocComment) (t : DocTag) : (d.addMissing t).text = d.text := by
  unfold addMissing
  split <;> rfl

/-- A tag gets in if it is the first of its name; nothing else changes. -/
theorem tagsNamed_addMissing (d : DocComment) (t : DocTag) (name : String) :
    (d.addMissing t).tagsNamed name =
      if t.name = name ∧ d.tagsNamed name = [] then [t] else d.tagsNamed name := by
  unfold addMissing
  cases htag : d.hasTag t.name with
  | true =>
    have hthere : ¬ (t.name = name ∧ d.tagsNamed name = []) := by
      rintro ⟨rfl, hnone⟩
      rw [hasTag_eq_false_iff.mpr hnone] at htag
      cases htag
    rw [if_pos rfl, if_neg hthere]
  | false =>
    have hnone := hasTag_eq_false_iff.mp htag
    have hadd : ({ d with tags := d.tags ++ [t] } : DocComment).tagsNamed name =
        d.tagsNamed name ++ [t].filter (·.name = name) := List.filter_append _ _
    rw [if_neg Bool.false_ne_true, hadd]
    by_cases hname : t.name = name
    · subst hname
      simp [hnone]
    · simp [hname]

private theorem tagsNamed_foldl_addMissing (d : DocComment) (ts : List DocTag) (name : String) :
    (ts.foldl addMissing d).tagsNamed name =
      if d.tagsNamed name = [] then (ts.filter (·.name = name)).take 1 else d.tagsNamed name := by
  induction ts generalizing d with
  | nil => simp +contextual
  | cons t ts ih =>
    rw [List.foldl_cons, ih, tagsNamed_addMissing]
    by_cases hname : t.name = name
    · by_cases hnone : d.tagsNamed name = [] <;> simp [hname, hnone]
    · simp [hname]

private theorem text_foldl_addMissing (d : DocComment) (ts : List DocTag) :
    (ts.foldl addMissing d).text = d.text := by
  induction ts generalizing d with
  | nil => rfl
  | cons t ts ih => rw [List.foldl_cons, ih, text_addMissing]

private theorem text_mergeMissing (d other : DocComment) :
    (d.mergeMissing other).text = if d.text = "" then other.text else d.text :=
  text_foldl_addMissing _ _

/-- The tags of a name stay, or the first one of the other documentation comes in. -/
theorem tagsNamed_mergeMissing (d other : DocComment) (name : String) :
    (d.mergeMissing other).tagsNamed name =
      if d.hasTag name then d.tagsNamed name else (other.tagsNamed name).take 1 := by
  rw [mergeMissing_eq, tagsNamed_foldl_addMissing]
  have hsame : (⟨if d.text = "" then other.text else d.text, d.tags⟩ : DocComment).tagsNamed name =
      d.tagsNamed name := rfl
  rw [hsame]
  cases htag : d.hasTag name with
  | true =>
    have hsome : d.tagsNamed name ≠ [] := by
      intro hnone
      rw [hasTag_eq_false_iff.mpr hnone] at htag
      cases htag
    rw [if_neg hsome, if_pos rfl]
  | false =>
    rw [if_pos (hasTag_eq_false_iff.mp htag), if_neg Bool.false_ne_true]
    rfl

/-- All tags of a name come in unless several would have to. -/
theorem tagsNamed_mergeMissing_eq_iff (d other : DocComment) (name : String) :
    (d.mergeMissing other).tagsNamed name =
        (if d.hasTag name then d.tagsNamed name else other.tagsNamed name) ↔
      d.hasTag name = true ∨ (other.tagsNamed name).length ≤ 1 := by
  rw [tagsNamed_mergeMissing]
  cases d.hasTag name with
  | true => simp
  | false => simp [List.take_eq_self_iff]

/-- Of the tags about parameters the first one counts alone. -/
theorem param?_mergeMissing (h : d.hasTag "param" = false) (p : String) :
    (d.mergeMissing other).param? p = (other.tagsNamed "param").head?.bind (·.about? p) := by
  rw [param?, tagsNamed_mergeMissing, h, if_neg Bool.false_ne_true]
  cases other.tagsNamed "param" with
  | nil => rfl
  | cons t ts => cases hp : t.about? p <;> simp [hp]

theorem param?_mergeMissing_eq_iff (h : d.hasTag "param" = false) (p : String) :
    (d.mergeMissing other).param? p = other.param? p ↔
      other.param? p = none ∨
        ∃ t, (other.tagsNamed "param").head? = some t ∧ t.about? p ≠ none := by
  rw [param?_mergeMissing h, param?]
  cases other.tagsNamed "param" with
  | nil => simp
  | cons t ts => cases hp : t.about? p <;> simp [hp, eq_comm]

/-- Missing text and missing tags are filled in, but a tag whose name occurs several times in the
other documentation comes in once, so the others are lost, and with them what they say about further
parameters. -/
theorem mergeMissing_complete_iff (d other : DocComment) :
    (d.mergeMissing other).text = (if d.text = "" then other.text else d.text) ∧
      (∀ name,
        (d.mergeMissing other).tagsNamed name =
          (if d.hasTag name then d.tagsNamed name else (other.tagsNamed name).take 1) ∧
        ((d.mergeMissing other).tagsNamed name =
            (if d.hasTag name then d.tagsNamed name else other.tagsNamed name) ↔
          d.hasTag name = true ∨ (other.tagsNamed name).length ≤ 1)) ∧
      (d.hasTag "param" = false → ∀ p,
        ((d.mergeMissing other).param? p = other.param? p ↔
          other.param? p = none ∨
            ∃ t, (other.tagsNamed "param").head? = some t ∧ t.about? p ≠ none)) := by
  refine ⟨text_mergeMissing d other, fun name => ?_, fun h p => param?_mergeMissing_eq_iff h p⟩
  exact ⟨tagsNamed_mergeMissing d other name, tagsNamed_mergeMissing_eq_iff d other name⟩

/-- Documentation of a method with two parameters. -/
def twoParameters : DocComment :=
  { text := "Finds a user.", tags := [⟨"param", "id the key"⟩, ⟨"param", "name the name"⟩] }

theorem mergeMissing_complete_iff_id :
    ({} : DocComment).hasTag "param" = false ∧
      (({} : DocComment).mergeMissing twoParameters).param? "id" =
        twoParameters.param? "id" := by
  have hnone : ({} : DocComment).hasTag "param" = false := by decide
  have hfirst : (twoParameters.tagsNamed "param").head? = some ⟨"param", "id the key"⟩ := by
    decide
  have habout : DocTag.about? ⟨"param", "id the key"⟩ "id" ≠ none := by decide
  refine ⟨hnone, ?_⟩
  exact ((mergeMissing_complete_iff {} twoParameters).2.2 hnone "id").mpr
    (.inr ⟨_, hfirst, habout⟩)

/-- An overriding method without documentation of its own loses what is said about the second
parameter. -/
theorem second_param_disappears :
    ({} : DocComment).hasTag "param" = false ∧
      (({} : DocComment).mergeMissing twoParameters).tagsNamed "param" ≠
        twoParameters.tagsNamed "param" ∧
      twoParameters.param? "name" = some "the name" ∧
      (({} : DocComment).mergeMissing twoParameters).param? "name" = none := by
  decide

end EndpointDocs.DocComment

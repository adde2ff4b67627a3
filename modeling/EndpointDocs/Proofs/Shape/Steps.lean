import EndpointDocs.Shape

namespace EndpointDocs.Shape

open TypeText

variable {p : Project} {text : String} {t : TypeDecl}

/-- What the elements of a type are bound to in its hierarchy, if anything. -/
def boundElement? (p : Project) (t : TypeDecl) : Option String :=
  (p.catalog.ancestors t).findSome? fun (_, b) => b.values.head?

theorem inheritedElement_eq (p : Project) (t : TypeDecl) :
    inheritedElement p t = ((boundElement? p t).map fun element =>
      if element ∈ t.parameters then "" else element).getD "" := by
  unfold inheritedElement boundElement?
  split
  · next element helement => rw [helement]; rfl
  · next hnone => rw [hnone]; rfl

/-- The element that a type settles for every reference to it: what it holds as an array, or what
an ancestor's first parameter is bound to. -/
def ownElement (p : Project) (t : TypeDecl) : String :=
  t.component.getD (inheritedElement p t)

/-- The ways to read a reference to the type `t`. -/
inductive ReadingOf (p : Project) (text : String) (t : TypeDecl) : Step text → Prop
  | file (class_eq : p.classify t = .file) : ReadingOf p text t (.settled (.plain .file))
  | anything (class_ne : p.classify t ≠ .file) (loose : (p.isMap t || p.isTop t) = true)
      (few : (arguments text).length ≤ 1) : ReadingOf p text t (.settled (.plain .object))
  | map {first value : String} {rest : List String} {shorter : value.length < text.length}
      (class_ne : p.classify t ≠ .file) (loose : (p.isMap t || p.isTop t) = true)
      (given : arguments text = first :: value :: rest) : ReadingOf p text t (.map value shorter)
  | component {items : String} (own : (p.isMap t || p.isTop t) = false)
      (class_eq : p.classify t = .array) (holds : t.component = some items) :
      ReadingOf p text t (.elements t.name items)
  | list {items : String} {rest : List String} {shorter : items.length < text.length}
      (own : (p.isMap t || p.isTop t) = false) (class_eq : p.classify t = .array)
      (holds : t.component = none) (given : arguments text = items :: rest) :
      ReadingOf p text t (.list items shorter)
  | inherited (own : (p.isMap t || p.isTop t) = false) (class_eq : p.classify t = .array)
      (holds : t.component = none) (bare : arguments text = []) :
      ReadingOf p text t (.elements t.name (inheritedElement p t))
  | members (own : (p.isMap t || p.isTop t) = false) (class_eq : p.classify t = .object) :
      ReadingOf p text t (.settled (.members (rawName text) t (arguments text)))
  | known (own : (p.isMap t || p.isTop t) = false) (class_ne : p.classify t ≠ .file)
      (scalar : (p.classify t).isScalar = true) :
      ReadingOf p text t (.settled (.known (p.classify t) (constantsOf t)))

theorem readingOf_stepType (p : Project) (text : String) (t : TypeDecl) :
    ReadingOf p text t (stepType p text t) := by
  unfold stepType
  split
  · next hfile => exact .file hfile
  next hfile =>
  split
  · next hloose =>
    split
    · next hgiven => exact .map hfile hloose hgiven
    · next hnone =>
      refine .anything hfile hloose ?_
      rcases harguments : arguments text with _ | ⟨first, _ | ⟨value, rest⟩⟩
      · simp
      · simp
      · exact absurd harguments (hnone _ _ _)
  next hown =>
  rw [Bool.not_eq_true] at hown
  split
  · next harray =>
    split
    · next hholds => exact .component hown harray hholds
    · next hholds =>
      split
      · next hgiven => exact .list hown harray hholds hgiven
      · next hbare => exact .inherited hown harray hholds hbare
  · next hobject => exact .members hown hobject
  · next harray hobject =>
    exact .known hown hfile (by simpa [DataType.isScalar] using ⟨harray, hobject⟩)

theorem ReadingOf.eq {s : Step text} (h : ReadingOf p text t s) : stepType p text t = s := by
  unfold stepType
  cases h with
  | file hfile => rw [if_pos hfile]
  | anything hfile hloose hfew =>
    rw [if_neg hfile, if_pos hloose]
    split
    · next hgiven => simp [hgiven] at hfew
    · rfl
  | map hfile hloose hgiven =>
    rw [if_neg hfile, if_pos hloose]
    split
    · next hgiven' =>
      cases hgiven.symm.trans hgiven'
      rfl
    · next hnone => exact absurd hgiven (hnone _ _ _)
  | component hown harray hholds => simp [hown, harray, hholds]
  | list hown harray hholds hgiven =>
    simp only [hown, harray, hholds]
    rw [if_neg (by decide), if_neg (by decide)]
    split
    · next hgiven' =>
      cases hgiven.symm.trans hgiven'
      rfl
    · next hbare => cases hgiven.symm.trans hbare
  | inherited hown harray hholds hbare =>
    simp only [hown, harray, hholds]
    rw [if_neg (by decide), if_neg (by decide)]
    split
    · next hgiven => cases hbare.symm.trans hgiven
    · rfl
  | members hown hobject => simp [hown, hobject]
  | known hown hfile hscalar =>
    rw [if_neg hfile, if_neg (by simp [hown])]
    split
    · next harray => simp [harray, DataType.isScalar] at hscalar
    · next hobject => simp [hobject, DataType.isScalar] at hscalar
    · rfl

/-- A reference to a type is read in one of these ways, and each way is taken where it applies. -/
theorem stepType_eq_iff {s : Step text} : stepType p text t = s ↔ ReadingOf p text t s :=
  ⟨fun h => h ▸ readingOf_stepType p text t, ReadingOf.eq⟩

private theorem stepType_settled {s : Shape} (h : stepType p text t = .settled s) :
    (∃ d, s = .plain d) ∨ (∃ d values, d.isScalar = true ∧ s = .known d values) ∨
      s = .members (rawName text) t (arguments text) := by
  cases stepType_eq_iff.mp h with
  | file | anything => exact .inl ⟨_, rfl⟩
  | members => exact .inr (.inr rfl)
  | known _ _ hscalar => exact .inr (.inl ⟨_, _, hscalar, rfl⟩)

private theorem stepType_elements {owner items : String}
    (h : stepType p text t = .elements owner items) : owner = t.name ∧ items = ownElement p t := by
  cases stepType_eq_iff.mp h with
  | component _ _ hholds | inherited _ _ hholds =>
    rw [ownElement, hholds]
    exact ⟨rfl, rfl⟩

theorem stepType_members {u : TypeDecl} {name : String} {given : List String}
    (h : stepType p text t = .settled (.members name u given)) :
    u = t ∧ p.classify t = .object ∧ name = rawName text ∧ given = arguments text := by
  cases stepType_eq_iff.mp h with
  | members _ hobject => exact ⟨rfl, hobject, rfl, rfl⟩

theorem stepType_inherited (hmap : p.isMap t = false ∧ p.isTop t = false)
    (harray : p.classify t = .array) (hcomponent : t.component = none)
    (harguments : arguments text = []) :
    stepType p text t = .elements t.name (inheritedElement p t) :=
  (ReadingOf.inherited (by simp [hmap]) harray hcomponent harguments).eq

theorem stepType_record (hkind : t.kind = .record) (hname : Scalar.named? p.scalars t.name = none)
    (hcollection : p.isCollection t = false ∧ p.isMap t = false) (htop : p.isTop t = false) :
    stepType p text t = .settled (.members (rawName text) t (arguments text)) := by
  have hclass : p.classify t = .object := by simp [Project.classify, hkind, hcollection.1, hname]
  exact (ReadingOf.members (by simp [hcollection.2, htop]) hclass).eq

theorem stepType_enumeration {constants : List KnownValue} (hkind : t.kind = .enumeration)
    (hcollection : p.isCollection t = false ∧ p.isMap t = false) (htop : p.isTop t = false)
    (hconstants : constantsOf t = some constants) :
    stepType p text t = .settled (.known .string (some constants)) := by
  have hclass : p.classify t = .string := by simp [Project.classify, hkind, hcollection.1]
  have hreading := @ReadingOf.known p text t (by simp [hcollection.2, htop]) (by simp [hclass])
    (by simp [hclass, DataType.isScalar])
  rw [hreading.eq, hclass, hconstants]

/-- The ways to read a reference. -/
inductive Reading (p : Project) (text : String) : Step text → Prop
  | blank (blank : Text.trim text = "") : Reading p text (.settled (.plain .object))
  | suffix {items : String} {shorter : items.length < text.length} (written : Text.trim text ≠ "")
      (suffixed : component? text = some items) : Reading p text (.list items shorter)
  | nothing (written : Text.trim text ≠ "") (single : component? text = none)
      (void : isVoid text = true) : Reading p text (.settled .nothing)
  | scalar {d : DataType} (written : Text.trim text ≠ "") (single : component? text = none)
      (value : isVoid text = false) (named : Scalar.named? p.scalars text = some d) :
      Reading p text (.settled (.plain d))
  | type {t : TypeDecl} {s : Step text} (written : Text.trim text ≠ "")
      (single : component? text = none) (value : isVoid text = false)
      (unnamed : Scalar.named? p.scalars text = none) (found : p.catalog.find? text = some t)
      (reading : ReadingOf p text t s) : Reading p text s
  | unknown (written : Text.trim text ≠ "") (single : component? text = none)
      (value : isVoid text = false) (unnamed : Scalar.named? p.scalars text = none)
      (unfound : p.catalog.find? text = none) :
      Reading p text (.settled (.plain ((Scalar.loose? p.scalars text).getD .object)))

theorem reading_step (p : Project) (text : String) : Reading p text (step p text) := by
  unfold step
  split
  · next hblank => exact .blank hblank
  next hwritten =>
  split
  · next hsuffixed => exact .suffix hwritten hsuffixed
  next hsingle =>
  split
  · next hvoid => exact .nothing hwritten hsingle hvoid
  next hvalue =>
  rw [Bool.not_eq_true] at hvalue
  split
  · next hnamed => exact .scalar hwritten hsingle hvalue hnamed
  next hunnamed =>
  split
  · next t hfound =>
    exact .type hwritten hsingle hvalue hunnamed hfound (readingOf_stepType p text t)
  · next hunfound => exact .unknown hwritten hsingle hvalue hunnamed hunfound

/-- An array suffix goes before everything else. -/
theorem step_of_component? {items : String} (hc : component? text = some items)
    (ht : Text.trim text ≠ "") : step p text = .list items (component?_length hc) := by
  unfold step
  rw [if_neg ht]
  split
  · next other h =>
    obtain rfl : items = other := Option.some.inj (hc.symm.trans h)
    rfl
  · next hnone => cases hc.symm.trans hnone

theorem step_of_component?_eq_none (hc : component? text = none) (ht : Text.trim text ≠ "") :
    step p text =
      if isVoid text then .settled .nothing
      else
        match Scalar.named? p.scalars text with
        | some t => .settled (.plain t)
        | none =>
          match p.catalog.find? text with
          | some t => stepType p text t
          | none => .settled (.plain ((Scalar.loose? p.scalars text).getD .object)) := by
  unfold step
  rw [if_neg ht]
  split
  · next h => cases hc.symm.trans h
  · rfl

/-- A type of the catalog says what a reference means unless something known by itself does. -/
theorem step_of_find? (ht : Text.trim text ≠ "") (hc : component? text = none)
    (hv : isVoid text = false) (hs : Scalar.named? p.scalars text = none)
    (hf : p.catalog.find? text = some t) : step p text = stepType p text t := by
  rw [step_of_component?_eq_none hc ht, if_neg (by simp [hv]), hs, hf]

theorem Reading.eq {s : Step text} (h : Reading p text s) : step p text = s := by
  cases h with
  | blank hblank => rw [step, if_pos hblank]
  | suffix hwritten hsuffixed => exact step_of_component? hsuffixed hwritten
  | nothing hwritten hsingle hvoid =>
    rw [step_of_component?_eq_none hsingle hwritten, if_pos hvoid]
  | scalar hwritten hsingle hvalue hnamed =>
    rw [step_of_component?_eq_none hsingle hwritten, if_neg (by simp [hvalue]), hnamed]
  | type hwritten hsingle hvalue hunnamed hfound hreading =>
    exact (step_of_find? hwritten hsingle hvalue hunnamed hfound).trans hreading.eq
  | unknown hwritten hsingle hvalue hunnamed hunfound =>
    rw [step_of_component?_eq_none hsingle hwritten, if_neg (by simp [hvalue]), hunnamed, hunfound]

/-- A reference is read in one of these ways, and each way is taken where it applies. -/
theorem step_eq_iff {s : Step text} : step p text = s ↔ Reading p text s :=
  ⟨fun h => h ▸ reading_step p text, Reading.eq⟩

/-- A reference that is settled by itself is a leaf or a type to be opened. -/
theorem step_settled {s : Shape} (h : step p text = .settled s) :
    s = .nothing ∨ (∃ d, s = .plain d) ∨
      (∃ d values, d.isScalar = true ∧ s = .known d values) ∨
      ∃ t, p.catalog.find? text = some t ∧ s = .members (rawName text) t (arguments text) := by
  cases step_eq_iff.mp h with
  | nothing => exact .inl rfl
  | blank | scalar | unknown => exact .inr (.inl ⟨_, rfl⟩)
  | type _ _ _ _ hfound hreading =>
    rcases stepType_settled hreading.eq with h | h | h
    · exact .inr (.inl h)
    · exact .inr (.inr (.inl h))
    · exact .inr (.inr (.inr ⟨_, hfound, h⟩))

/-- Only types that are documented as objects are opened, by the name and with the arguments that
they are referred to with. -/
theorem step_members {name : String} {given : List String}
    (h : step p text = .settled (.members name t given)) :
    p.catalog.find? text = some t ∧ p.classify t = .object ∧ name = rawName text ∧
      given = arguments text := by
  cases step_eq_iff.mp h with
  | type _ _ _ _ hfound hreading =>
    obtain ⟨rfl, hopened⟩ := stepType_members hreading.eq
    exact ⟨hfound, hopened⟩

/-- A map is made of an argument of the reference. -/
theorem step_map {value : String} {shorter : value.length < text.length}
    (h : step p text = .map value shorter) : value ∈ arguments text := by
  cases step_eq_iff.mp h with
  | type _ _ _ _ _ hreading =>
    cases hreading with
    | map _ _ hgiven =>
      rw [hgiven]
      exact List.mem_cons_of_mem _ List.mem_cons_self

theorem step_elements {owner items : String} (h : step p text = .elements owner items) :
    ∃ t, p.catalog.find? text = some t ∧ owner = t.name ∧ items = ownElement p t := by
  cases step_eq_iff.mp h with
  | type _ _ _ _ hfound hreading => exact ⟨_, hfound, stepType_elements hreading.eq⟩

end EndpointDocs.Shape

import EndpointDocs.Proofs.Schema.Nodes

namespace EndpointDocs

section Texts

variable {correction found result : Option String} {text : String}

/-- The correction of a text gives what it says without the white space around, if that is
anything. -/
def Gives (correction : Option String) (text : String) : Prop :=
  ∃ said, correction = some said ∧ Text.trim said = text ∧ text ≠ ""

/-- A text after its correction: the one that is given, or else the one that was found. -/
def Corrected (correction found result : Option String) : Prop :=
  (∀ text, Gives correction text → result = some text) ∧
    ((∀ text, ¬ Gives correction text) → result = found)

theorem contentOf?_eq_some_iff :
    Text.contentOf? correction = some text ↔ Gives correction text := by
  cases correction with
  | none => simp [Text.contentOf?, Gives]
  | some said =>
    by_cases hblank : Text.trim said = ""
    · have hnot : ¬ Gives (some said) text := by
        rintro ⟨other, hsaid, htext, hne⟩
        cases hsaid
        exact hne (htext.symm.trans hblank)
      simp [Text.contentOf?, Text.content?, hblank, hnot]
    · constructor
      · intro h
        obtain rfl : Text.trim said = text := by
          simpa [Text.contentOf?, Text.content?, hblank] using h
        exact ⟨said, rfl, rfl, hblank⟩
      · rintro ⟨other, hsaid, rfl, -⟩
        cases hsaid
        simp [Text.contentOf?, Text.content?, hblank]

theorem corrected_iff :
    Corrected correction found result ↔ result = correctText found correction := by
  rw [correctText]
  cases hcontent : Text.contentOf? correction with
  | none =>
    have hnot : ∀ text, ¬ Gives correction text := by
      intro text hgives
      rw [contentOf?_eq_some_iff.mpr hgives] at hcontent
      cases hcontent
    constructor
    · intro h
      exact h.2 hnot
    · intro h
      exact ⟨fun text hgives => absurd hgives (hnot text), fun _ => h⟩
  | some content =>
    have hgives := contentOf?_eq_some_iff.mp hcontent
    constructor
    · intro h
      exact h.1 content hgives
    · intro h
      refine ⟨fun text htext => ?_, fun hnot => absurd hgives (hnot content)⟩
      rw [contentOf?_eq_some_iff.mpr htext] at hcontent
      exact h.trans hcontent.symm

/-- There is one text only after a correction. -/
theorem Corrected.eq {other : Option String} (h : Corrected correction found result)
    (hother : Corrected correction found other) : result = other :=
  (corrected_iff.mp h).trans (corrected_iff.mp hother).symm

theorem Corrected.again (h : Corrected correction found result) :
    Corrected correction result result :=
  ⟨h.1, fun _ => rfl⟩

end Texts

namespace Schema

variable {s r : Schema} {o : FieldOverride} {t : DataType}

/-- Another type brings other children, and nothing else. -/
theorem setType_eq (s : Schema) (t : DataType) : s.setType t =
    { s with
      dataType := t, items := (s.setType t).items, properties := (s.setType t).properties } := by
  cases t <;> rfl

/-- The children are those of the type that the correction gives. All else is corrected where the
correction says something about it. -/
theorem overlay_eq (s : Schema) (o : FieldOverride) : s.overlay o =
    { s with
      name := (Text.contentOf? o.name).getD s.name
      dataType := o.dataType.getD s.dataType
      dateFormat := correctText s.dateFormat o.dateFormat
      description := correctText s.description o.description
      required := o.required.getD s.required
      deprecated := o.deprecated.getD s.deprecated
      sample := correctText s.sample o.sample
      mock := correctText s.mock o.mock
      default := correctText s.default o.default
      items := (s.overlay o).items
      properties := (s.overlay o).properties } := by
  unfold overlay
  cases o.dataType with
  | none => rfl
  | some t => simp only; rw [setType_eq]; rfl

theorem overlay_name (s : Schema) (o : FieldOverride) :
    (s.overlay o).name = (Text.contentOf? o.name).getD s.name := by
  rw [overlay_eq]

theorem overlay_mock (s : Schema) (o : FieldOverride) :
    (s.overlay o).mock = correctText s.mock o.mock := by
  rw [overlay_eq]

theorem overlay_values (s : Schema) (o : FieldOverride) : (s.overlay o).values = s.values := by
  rw [overlay_eq]

theorem overlay_dataType (s : Schema) (o : FieldOverride) :
    (s.overlay o).dataType = o.dataType.getD s.dataType := by
  rw [overlay_eq]

theorem setType_self (h : s.HasOwnForm) : s.setType s.dataType = s := by
  obtain ⟨_, dataType, _, _, _, _, _, _, _, _, _, items, properties⟩ := s
  cases dataType with
  | array =>
    obtain rfl : properties = none := h.properties_eq_none nofun
    cases items with
    | none => exact absurd h Bool.false_ne_true
    | some i => rfl
  | object =>
    obtain rfl : items = none := h.items_eq_none nofun
    cases properties with
    | none => exact absurd h Bool.false_ne_true
    | some m => rfl
  | string | integer | number | boolean | file =>
    obtain rfl : items = none := h.items_eq_none nofun
    obtain rfl : properties = none := h.properties_eq_none nofun
    rfl

/-- A node of another type has no children of the type that it gets. -/
theorem setType_of_ne (h : s.HasOwnForm) (ht : t ≠ s.dataType) :
    (s.setType t).items = (ofType t).items ∧ (s.setType t).properties = (ofType t).properties := by
  cases t with
  | array =>
    have hitems := h.items_eq_none (Ne.symm ht)
    simp [setType, ofType, array, hitems]
  | object =>
    have hproperties := h.properties_eq_none (Ne.symm ht)
    simp [setType, ofType, object, hproperties]
  | string | integer | number | boolean | file => exact ⟨rfl, rfl⟩

/-- The form of a tree does not depend on what is said about its root. -/
theorem isWellFormed_congr (hd : s.dataType = r.dataType) (hi : s.items = r.items)
    (hp : s.properties = r.properties) : s.isWellFormed = r.isWellFormed := by
  rw [Bool.eq_iff_iff, isWellFormed_iff, isWellFormed_iff, HasOwnForm, HasOwnForm, hd, hi, hp]

private theorem isWellFormed_setType (h : s.isWellFormed = true) (t : DataType) :
    (s.setType t).isWellFormed = true := by
  have hform := (isWellFormed_iff.mp h).1
  by_cases ht : t = s.dataType
  · rw [ht, setType_self hform]
    exact h
  · have hnode : (s.setType t).dataType = (ofType t).dataType := by cases t <;> rfl
    obtain ⟨hitems, hproperties⟩ := setType_of_ne hform ht
    rw [isWellFormed_congr hnode hitems hproperties]
    exact (sound_iff_isWellFormed.mp (sound_ofType t)).1

/-- A type that is found already is as good as one that a correction gives. -/
theorem overlay_children (h : s.HasOwnForm) (o : FieldOverride) :
    (s.overlay o).items = (s.setType (o.dataType.getD s.dataType)).items ∧
      (s.overlay o).properties = (s.setType (o.dataType.getD s.dataType)).properties := by
  unfold overlay
  cases o.dataType with
  | none =>
    rw [Option.getD_none, setType_self h]
    exact ⟨rfl, rfl⟩
  | some t => exact ⟨rfl, rfl⟩

private theorem isWellFormed_overlay (h : s.isWellFormed = true) (o : FieldOverride) :
    (s.overlay o).isWellFormed = true := by
  obtain ⟨hitems, hproperties⟩ := overlay_children (isWellFormed_iff.mp h).1 o
  have hd : (s.overlay o).dataType = (s.setType (o.dataType.getD s.dataType)).dataType := by
    rw [overlay_dataType, setType_eq]
  rw [isWellFormed_congr hd hitems hproperties]
  exact isWellFormed_setType h _

/-- A node after its correction. What the correction says counts; the children are those that the
node had, or as few as its new type allows; everything else is as it was found. -/
structure Overlaid (s : Schema) (o : FieldOverride) (r : Schema) : Prop where
  name : Corrected o.name (some s.name) (some r.name)
  description : Corrected o.description s.description r.description
  default : Corrected o.default s.default r.default
  sample : Corrected o.sample s.sample r.sample
  mock : Corrected o.mock s.mock r.mock
  dateFormat : Corrected o.dateFormat s.dateFormat r.dateFormat
  required : r.required = o.required.getD s.required
  deprecated : r.deprecated = o.deprecated.getD s.deprecated
  dataType : r.dataType = o.dataType.getD s.dataType
  location : r.location = s.location
  values : r.values = s.values
  sameType : r.dataType = s.dataType → r.items = s.items ∧ r.properties = s.properties
  otherType : r.dataType ≠ s.dataType →
    r.items = (ofType r.dataType).items ∧ r.properties = (ofType r.dataType).properties

private theorem overlaid_overlay (h : s.HasOwnForm) (o : FieldOverride) :
    Overlaid s o (s.overlay o) := by
  obtain ⟨hitems, hproperties⟩ := overlay_children h o
  rw [← overlay_dataType] at hitems hproperties
  have hname : some ((Text.contentOf? o.name).getD s.name) = correctText (some s.name) o.name := by
    rw [correctText, Option.or_some]
  constructor
  case name => rw [corrected_iff, ← hname, overlay_name]
  case sameType =>
    intro hd
    rw [hitems, hproperties, hd, setType_self h]
    exact ⟨rfl, rfl⟩
  case otherType =>
    intro hd
    rw [hitems, hproperties]
    exact setType_of_ne h hd
  case required | deprecated | dataType | location | values => rw [overlay_eq]
  all_goals rw [corrected_iff, overlay_eq]

/-- Nothing about the node is left open. -/
theorem Overlaid.eq (h : Overlaid s o r) {q : Schema} (hq : Overlaid s o q) : r = q := by
  have hd : r.dataType = q.dataType := h.dataType.trans hq.dataType.symm
  have hchildren : r.items = q.items ∧ r.properties = q.properties := by
    by_cases hsame : r.dataType = s.dataType
    · obtain ⟨hi, hp⟩ := h.sameType hsame
      obtain ⟨hi', hp'⟩ := hq.sameType (hd ▸ hsame)
      exact ⟨hi.trans hi'.symm, hp.trans hp'.symm⟩
    · obtain ⟨hi, hp⟩ := h.otherType hsame
      obtain ⟨hi', hp'⟩ := hq.otherType (hd ▸ hsame)
      rw [hi, hp, hi', hp', hd]
      exact ⟨rfl, rfl⟩
  have hrequired := h.required.trans hq.required.symm
  have hdeprecated := h.deprecated.trans hq.deprecated.symm
  have hlocation := h.location.trans hq.location.symm
  have hvalues := h.values.trans hq.values.symm
  have hname := Option.some.inj (h.name.eq hq.name)
  have hdate := h.dateFormat.eq hq.dateFormat
  have hdescription := h.description.eq hq.description
  have hsample := h.sample.eq hq.sample
  have hmock := h.mock.eq hq.mock
  have hdefault := h.default.eq hq.default
  cases r
  cases q
  rw [Schema.mk.injEq]
  exact ⟨hname, hd, hdate, hdescription, hlocation, hrequired, hdeprecated, hsample, hmock,
    hdefault, hvalues, hchildren⟩

/-- What has been corrected is its own correction. -/
theorem Overlaid.again (h : Overlaid s o r) : Overlaid r o r where
  name := h.name.again
  description := h.description.again
  default := h.default.again
  sample := h.sample.again
  mock := h.mock.again
  dateFormat := h.dateFormat.again
  required := by rw [h.required]; cases o.required <;> rfl
  deprecated := by rw [h.deprecated]; cases o.deprecated <;> rfl
  dataType := by rw [h.dataType]; cases o.dataType <;> rfl
  location := rfl
  values := rfl
  sameType := fun _ => ⟨rfl, rfl⟩
  otherType := fun hd => absurd rfl hd

/-- A correction changes what it names and nothing else: the nodes of the tree have the children
that their types ask for, each part of the corrected node is what the correction says or what it
was, and correcting the node again changes nothing. -/
theorem overlay_settles (h : s.isWellFormed = true) (o : FieldOverride) :
    (∀ n, (s.overlay o).HasNode n → n.HasOwnForm) ∧
      (∀ r, Overlaid s o r ↔ r = s.overlay o) ∧ (s.overlay o).overlay o = s.overlay o := by
  have hwell := isWellFormed_overlay h o
  have hwritten := overlaid_overlay (isWellFormed_iff.mp h).1 o
  refine ⟨isWellFormed_iff_nodes.mp hwell, fun r => ⟨fun hr => hr.eq hwritten, ?_⟩, ?_⟩
  · rintro rfl
    exact hwritten
  · exact (overlaid_overlay (isWellFormed_iff.mp hwell).1 o).eq hwritten.again

/-- A list of tags, which a correction makes an object of another name. -/
def tagList : Schema :=
  { array (scalar .string) with name := "tags", mock := some "@string" }

def labelling : FieldOverride :=
  { name := some " labels ", dataType := some .object, required := some true, mock := some " " }

def labels : Schema :=
  { name := "labels", dataType := .object, required := true, mock := some "@string",
    properties := some [] }

theorem overlay_settles_labels :
    tagList.isWellFormed = true ∧ (∀ n, labels.HasNode n → n.HasOwnForm) ∧
      (∀ r, Overlaid tagList labelling r ↔ r = labels) ∧ labels.overlay labelling = labels := by
  have hwell : tagList.isWellFormed = true := rfl
  have hlabels : tagList.overlay labelling = labels := rfl
  have hsettles := overlay_settles hwell labelling
  rw [hlabels] at hsettles
  exact ⟨hwell, hsettles⟩

end Schema

end EndpointDocs

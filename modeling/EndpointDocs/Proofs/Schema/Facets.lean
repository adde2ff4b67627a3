import EndpointDocs.Proofs.Schema.Nodes

namespace EndpointDocs

/-- What can be left out of a schema: the defaults, and the date formats together with the mocks,
some of which are made up from them. -/
structure Facets where
  defaults : Bool := false
  dates : Bool := false

namespace Facets

def onlyDefaults : Facets := { defaults := true }

def onlyDates : Facets := { dates := true }

def hide (hidden : Bool) (text : Option String) : Option String :=
  if hidden then none else text

@[simp] theorem hide_none (hidden : Bool) : hide hidden none = none := by
  cases hidden <;> rfl

@[simp] theorem hide_true (text : Option String) : hide true text = none :=
  rfl

@[simp] theorem hide_false (text : Option String) : hide false text = text :=
  rfl

end Facets

namespace Schema

open Facets

mutual

/-- The tree with the facets left out at every node. -/
def stripped (f : Facets) : Schema → Schema
  | { name, dataType, dateFormat, description, location, required, deprecated, sample, mock,
      default, values, items, properties } =>
    { name, dataType, description, location, required, deprecated, sample, values
      dateFormat := hide f.dates dateFormat
      mock := hide f.dates mock
      default := hide f.defaults default
      items := itemsStripped f items
      properties := mapStripped f properties }

def itemsStripped (f : Facets) : Option Schema → Option Schema
  | none => none
  | some s => some (s.stripped f)

def mapStripped (f : Facets) : Option (List (String × Schema)) → Option (List (String × Schema))
  | none => none
  | some entries => some (entriesStripped f entries)

def entriesStripped (f : Facets) : List (String × Schema) → List (String × Schema)
  | [] => []
  | e :: es => entryStripped f e :: entriesStripped f es

def entryStripped (f : Facets) : String × Schema → String × Schema
  | (k, s) => (k, s.stripped f)

end

/-- The map with the facets left out of each schema. -/
def allStripped (f : Facets) (m : OrderedMap Schema) : OrderedMap Schema :=
  m.mapEntries id (stripped f)

variable {f g : Facets} {s t i j : Schema} {m n : OrderedMap Schema}

theorem entriesStripped_eq (f : Facets) (m : OrderedMap Schema) :
    entriesStripped f m = allStripped f m := by
  induction m with
  | nil => rfl
  | cons e m ih =>
    obtain ⟨k, s⟩ := e
    rw [entriesStripped, entryStripped, ih]
    rfl

theorem stripped_eq (f : Facets) (s : Schema) :
    s.stripped f = { s with
      dateFormat := hide f.dates s.dateFormat
      mock := hide f.dates s.mock
      default := hide f.defaults s.default
      items := s.items.map (stripped f)
      properties := s.properties.map (allStripped f) } := by
  obtain ⟨_, _, _, _, _, _, _, _, _, _, _, items, properties⟩ := s
  rw [stripped]
  cases items <;> cases properties <;> simp [itemsStripped, mapStripped, entriesStripped_eq]

@[simp] theorem name_stripped (s : Schema) : (s.stripped f).name = s.name := by
  rw [stripped_eq]

@[simp] theorem dataType_stripped (s : Schema) : (s.stripped f).dataType = s.dataType := by
  rw [stripped_eq]

@[simp] theorem location_stripped (s : Schema) : (s.stripped f).location = s.location := by
  rw [stripped_eq]

theorem isObject_stripped (s : Schema) : (s.stripped f).isObject = s.isObject := by
  rw [isObject, isObject, dataType_stripped]

theorem children_stripped (s : Schema) : (s.stripped f).children = s.children.map (stripped f) := by
  rw [stripped_eq, children, children]
  cases s.properties with
  | none => rfl
  | some m => simp [allStripped, OrderedMap.mapEntries]

/-- Two trees are the same apart from facets left out of either. -/
structure Agree (f g : Facets) (s t : Schema) : Prop where
  name : s.name = t.name
  dataType : s.dataType = t.dataType
  dateFormat : hide f.dates s.dateFormat = hide g.dates t.dateFormat
  description : s.description = t.description
  location : s.location = t.location
  required : s.required = t.required
  deprecated : s.deprecated = t.deprecated
  sample : s.sample = t.sample
  mock : hide f.dates s.mock = hide g.dates t.mock
  default : hide f.defaults s.default = hide g.defaults t.default
  values : s.values = t.values
  items : s.items.map (stripped f) = t.items.map (stripped g)
  properties : s.properties.map (allStripped f) = t.properties.map (allStripped g)

theorem stripped_eq_iff : s.stripped f = t.stripped g ↔ Agree f g s t := by
  rw [stripped_eq, stripped_eq, Schema.mk.injEq]
  constructor
  · rintro ⟨h1, h2, h3, h4, h5, h6, h7, h8, h9, h10, h11, h12, h13⟩
    exact ⟨h1, h2, h3, h4, h5, h6, h7, h8, h9, h10, h11, h12, h13⟩
  · rintro ⟨h1, h2, h3, h4, h5, h6, h7, h8, h9, h10, h11, h12, h13⟩
    exact ⟨h1, h2, h3, h4, h5, h6, h7, h8, h9, h10, h11, h12, h13⟩

@[simp] theorem stripped_nothing (s : Schema) : s.stripped {} = s := by
  induction s using node_induction with
  | h s items properties =>
    have hitems : s.items.map (stripped {}) = s.items := by
      cases hi : s.items with
      | none => rfl
      | some i => rw [Option.map_some, items i hi]
    have hproperties : s.properties.map (allStripped {}) = s.properties := by
      cases hm : s.properties with
      | none => rfl
      | some m =>
        have hentries : allStripped {} m = m := by
          rw [allStripped, OrderedMap.mapEntries]
          exact (List.map_congr_left fun e he => by rw [properties m hm e he]; rfl).trans
            (List.map_id m)
        rw [Option.map_some, hentries]
    rw [stripped_eq, hitems, hproperties]
    simp only [hide_false]
    cases s
    rfl

theorem stripped_ofType (f : Facets) (d : DataType) : (ofType d).stripped f = ofType d := by
  cases d <;> simp [ofType, object, array, scalar, stripped_eq, allStripped, OrderedMap.mapEntries]

theorem stripped_known (f : Facets) (d : DataType) (values : Option (List KnownValue)) :
    { scalar d with values }.stripped f = { scalar d with values } := by
  simp [scalar, stripped_eq]

theorem stripped_object (f : Facets) : object.stripped f = object :=
  stripped_ofType f .object

theorem stripped_array (h : i.stripped f = j.stripped g) :
    (array i).stripped f = (array j).stripped g := by
  rw [stripped_eq, stripped_eq]
  simp [array, h]

theorem allStripped_put (hm : allStripped f m = allStripped g n)
    (hs : s.stripped f = t.stripped g) :
    allStripped f (m.put s.name s) = allStripped g (n.put t.name t) := by
  have hname := (stripped_eq_iff.mp hs).name
  have hput (e : Facets) (l : OrderedMap Schema) (k : String) (v : Schema) :
      allStripped e (l.put k v) = (allStripped e l).put k (v.stripped e) :=
    OrderedMap.put_mapEntries fun _ _ => Iff.rfl
  rw [hput, hput, hm, hs, hname]

theorem allStripped_putAll {l k : OrderedMap Schema} (hm : allStripped f m = allStripped g n)
    (hl : allStripped f l = allStripped g k) :
    allStripped f (m.putAll l) = allStripped g (n.putAll k) := by
  simp only [allStripped, OrderedMap.putAll_mapValues] at hm hl ⊢
  rw [hm, hl]

theorem Agree.properties_getD (h : Agree f g s t) :
    allStripped f (s.properties.getD []) = allStripped g (t.properties.getD []) := by
  have hgetD (e : Facets) (m : Option (OrderedMap Schema)) :
      allStripped e (m.getD []) = (m.map (allStripped e)).getD [] := by
    cases m <;> rfl
  rw [hgetD, hgetD, h.properties]

theorem Agree.items_getD (h : Agree f g s t) :
    (s.items.getD object).stripped f = (t.items.getD object).stripped g := by
  have hgetD (e : Facets) (i : Option Schema) :
      (i.getD object).stripped e = (i.map (stripped e)).getD object := by
    cases i with
    | none => exact stripped_object e
    | some i => rfl
  rw [hgetD, hgetD, h.items]

theorem Agree.ownOrItemValues (h : Agree f g s t) : s.ownOrItemValues = t.ownOrItemValues := by
  have hvalues (e : Facets) (i : Option Schema) :
      i.bind (·.values) = (i.map (stripped e)).bind (·.values) := by
    cases i with
    | none => rfl
    | some i => simp [stripped_eq]
  rw [Schema.ownOrItemValues, Schema.ownOrItemValues, h.values, hvalues f s.items,
    hvalues g t.items, h.items]

theorem Agree.setType (h : Agree f g s t) (d : DataType) :
    Agree f g (s.setType d) (t.setType d) := by
  cases d with
  | object =>
    exact { h with dataType := rfl, items := rfl, properties := congrArg some h.properties_getD }
  | array =>
    exact { h with dataType := rfl, items := congrArg some h.items_getD, properties := rfl }
  | string | integer | number | boolean | file =>
    exact { h with dataType := rfl, items := rfl, properties := rfl }

/-- What is hidden on both sides, or shown and the same, is so once it is corrected. -/
theorem hide_correctText {a b : Bool} {x y : Option String} (o : Option String)
    (h : hide a x = hide b y) (hab : a = b ∨ Text.contentOf? o = none) :
    hide a (correctText x o) = hide b (correctText y o) := by
  rcases hab with rfl | hnone
  · cases a with
    | true => rfl
    | false => rw [hide_false, hide_false] at h ⊢; rw [h]
  · simp [correctText, hnone, h]

/-- A correction that gives no default need not hide the same defaults on both sides. -/
theorem Agree.overlay (h : Agree f g s t) (o : FieldOverride) (hdates : f.dates = g.dates)
    (hdefaults : f.defaults = g.defaults ∨ Text.contentOf? o.default = none) :
    Agree f g (s.overlay o) (t.overlay o) := by
  unfold Schema.overlay
  have hedit {s t : Schema} (h : Agree f g s t) : Agree f g
      { s with
        name := (Text.contentOf? o.name).getD s.name
        description := correctText s.description o.description
        required := o.required.getD s.required
        deprecated := o.deprecated.getD s.deprecated
        default := correctText s.default o.default
        sample := correctText s.sample o.sample
        mock := correctText s.mock o.mock
        dateFormat := correctText s.dateFormat o.dateFormat }
      { t with
        name := (Text.contentOf? o.name).getD t.name
        description := correctText t.description o.description
        required := o.required.getD t.required
        deprecated := o.deprecated.getD t.deprecated
        default := correctText t.default o.default
        sample := correctText t.sample o.sample
        mock := correctText t.mock o.mock
        dateFormat := correctText t.dateFormat o.dateFormat } :=
    { h with
      name := by simp only [h.name]
      description := by simp only [h.description]
      required := by simp only [h.required]
      deprecated := by simp only [h.deprecated]
      sample := by simp only [h.sample]
      default := hide_correctText o.default h.default hdefaults
      mock := hide_correctText o.mock h.mock (.inl hdates)
      dateFormat := hide_correctText o.dateFormat h.dateFormat (.inl hdates) }
  cases o.dataType with
  | none => exact hedit h
  | some d => exact hedit (h.setType d)

end Schema

end EndpointDocs

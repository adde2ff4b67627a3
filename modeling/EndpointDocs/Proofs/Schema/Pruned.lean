import EndpointDocs.Resolution
import EndpointDocs.Proofs.Member.Described
import EndpointDocs.Proofs.Schema.Nodes

namespace EndpointDocs.Schema

open OrderedMap

/-- The node with other children. -/
def withChildren (s : Schema) (items : Option Schema) (properties : Option (OrderedMap Schema)) :
    Schema :=
  { s with items, properties }

theorem withChildren_self (s : Schema) : s.withChildren s.items s.properties = s := by
  cases s
  rfl

/-- The second tree is the first one with no properties left for some of its objects. -/
inductive Prunes : Schema → Schema → Prop
  | keep {s : Schema} {items : Option Schema} {properties : Option (OrderedMap Schema)}
      (inItems : Option.Rel Prunes s.items items)
      (inProperties : Option.Rel (EntryWise Prunes) s.properties properties) :
      Prunes s (s.withChildren items properties)
  | cut {s : Schema} {items : Option Schema} {m : OrderedMap Schema}
      (inItems : Option.Rel Prunes s.items items) (object : s.dataType = .object)
      (properties : s.properties = some m) : Prunes s (s.withChildren items (some []))

variable {s t i j r : Schema} {m n : OrderedMap Schema}

theorem Prunes.items (h : Prunes s t) : Option.Rel Prunes s.items t.items := by
  cases h with
  | keep inItems _ => exact inItems
  | cut inItems _ _ => exact inItems

/-- The properties of a node are pruned one by one, or those of an object are gone. -/
theorem Prunes.properties_cases (h : Prunes s t) :
    Option.Rel (EntryWise Prunes) s.properties t.properties ∨
      s.dataType = .object ∧ s.properties.isSome = true ∧ t.properties = some [] := by
  cases h with
  | keep _ inProperties => exact .inl inProperties
  | cut _ object properties => exact .inr ⟨object, properties ▸ rfl, rfl⟩

/-- Nothing else is changed. -/
theorem Prunes.eq (h : Prunes s t) : t = s.withChildren t.items t.properties := by
  cases h <;> rfl

/-- Whatever else a node says, it is pruned where its children are. -/
theorem Prunes.withChildren (h : Prunes s t) (htype : r.dataType = s.dataType)
    (hitems : r.items = s.items) (hproperties : r.properties = s.properties) :
    Prunes r (r.withChildren t.items t.properties) := by
  rcases h.properties_cases with hkept | ⟨hobject, hsome, hcut⟩
  · exact .keep (hitems ▸ h.items) (hproperties ▸ hkept)
  · obtain ⟨m, hm⟩ := Option.isSome_iff_exists.mp hsome
    rw [hcut]
    exact .cut (hitems ▸ h.items) (htype.trans hobject) (hproperties.trans hm)

theorem prunes_self (s : Schema) : Prunes s s := by
  induction s using node_induction with
  | h s items properties =>
    have hitems : Option.Rel Prunes s.items s.items := by
      cases hi : s.items with
      | none => exact .none
      | some i => exact .some (items i hi)
    have hproperties : Option.Rel (EntryWise Prunes) s.properties s.properties := by
      cases hm : s.properties with
      | none => exact .none
      | some m => exact .some (entryWise_self (properties m hm))
    have hsame : Prunes s (s.withChildren s.items s.properties) := .keep hitems hproperties
    rwa [withChildren_self] at hsame

/-- The tree has a field at the path of names, which goes through the items of arrays. -/
inductive HasField : Schema → List String → Prop
  | own {s : Schema} {m : OrderedMap Schema} {name : String} (properties : s.properties = some m)
      (mem : name ∈ m.keys) : HasField s [name]
  | nested {s : Schema} {m : OrderedMap Schema} {e : String × Schema} {path : List String}
      (properties : s.properties = some m) (mem : e ∈ m) (field : HasField e.2 path) :
      HasField s (e.1 :: path)
  | items {s i : Schema} {path : List String} (items : s.items = some i)
      (field : HasField i path) : HasField s path

theorem not_hasField_object (path : List String) : ¬ object.HasField path := by
  intro h
  generalize hs : object = s at h
  cases h with
  | own hm hname =>
    subst hs
    cases hm
    cases hname
  | nested hm he _ =>
    subst hs
    cases hm
    cases he
  | items hi _ =>
    subst hs
    cases hi

/-- The properties that are left were there before. -/
theorem Prunes.exists_properties (h : Prunes s t) (hn : t.properties = some n) {e : String × Schema}
    (he : e ∈ n) : ∃ m v, s.properties = some m ∧ (e.1, v) ∈ m ∧ Prunes v e.2 := by
  rcases h.properties_cases with hkept | ⟨_, _, hcut⟩
  · rw [hn] at hkept
    generalize hm : s.properties = before at hkept
    cases hkept with
    | @some m _ hmn =>
      obtain ⟨v, hv, hpruned⟩ := hmn.exists_of_mem he
      exact ⟨m, v, rfl, hv, hpruned⟩
  · rw [hn] at hcut
    cases hcut
    cases he

/-- What is left of a tree has no field that was not there before. -/
theorem Prunes.hasField (h : Prunes s t) {path : List String} (ht : t.HasField path) :
    s.HasField path := by
  induction ht generalizing s with
  | own hn hname =>
    obtain ⟨e, he, rfl⟩ := List.mem_map.mp hname
    obtain ⟨m, v, hm, hv, _⟩ := h.exists_properties hn he
    have hkey : e.1 ∈ OrderedMap.keys m := List.mem_map.mpr ⟨_, hv, rfl⟩
    exact .own hm hkey
  | nested hn he _ ih =>
    obtain ⟨m, v, hm, hv, hpruned⟩ := h.exists_properties hn he
    exact .nested (e := (_, v)) hm hv (ih hpruned)
  | items hj _ ih =>
    have hitems := h.items
    rw [hj] at hitems
    generalize hi : s.items = before at hitems
    cases hitems with
    | some hpruned => exact .items hi (ih hpruned)

theorem prunes_withProperties (h : EntryWise Prunes m n) :
    Prunes (withProperties m) (withProperties n) :=
  .keep (s := withProperties m) .none (.some h)

/-- An object that is left as a leaf. -/
theorem prunes_object (m : OrderedMap Schema) : Prunes (withProperties m) object :=
  .cut (s := withProperties m) .none rfl rfl

theorem prunes_array (h : Prunes i j) : Prunes (array i) (array j) :=
  .keep (s := array i) (.some h) .none

theorem prunes_mapOf (h : Prunes i j) : Prunes (mapOf i) (mapOf j) := by
  have hnamed : Prunes { i with name := mapKey } { j with name := mapKey } := by
    rw [h.eq]
    exact h.withChildren (r := { i with name := mapKey }) rfl rfl rfl
  exact prunes_withProperties (.cons hnamed .nil)

/-- The same was found but for properties that are gone, or nothing by either run. -/
abbrev PrunesFound : Option Schema → Option Schema → Prop :=
  Option.Rel Prunes

theorem PrunesFound.getD_object {a b : Option Schema} (h : PrunesFound a b) :
    Prunes (a.getD object) (b.getD object) := by
  cases h with
  | none => exact prunes_self object
  | some h => exact h

theorem Prunes.ownOrItemValues (h : Prunes s t) : t.ownOrItemValues = s.ownOrItemValues := by
  have hitems := h.items
  have hvalues : t.values = s.values := by rw [h.eq]; rfl
  rw [Schema.ownOrItemValues, Schema.ownOrItemValues, hvalues]
  generalize s.items = before at hitems
  generalize t.items = after at hitems
  cases hitems with
  | none => rfl
  | some hpruned =>
    have hbelow := congrArg (fun r : Schema => r.values) hpruned.eq
    exact congrArg _ hbelow

/-- What is said about a member leaves its children alone, and is made up from its values and what
the node says itself. -/
theorem describe_withChildren (member : Member) (p : Project) (u : Usage) (text : String)
    {items : Option Schema} {properties : Option (OrderedMap Schema)}
    (hvalues : (s.withChildren items properties).ownOrItemValues = s.ownOrItemValues) :
    member.describe p u text (s.withChildren items properties) =
      (member.describe p u text s).withChildren items properties := by
  simp only [Member.describe, hvalues, stampDate_eq]
  rfl

theorem Prunes.describe (h : Prunes s t) (member : Member) (p : Project) (u : Usage)
    (text : String) : Prunes (member.describe p u text s) (member.describe p u text t) := by
  have hvalues := h.ownOrItemValues
  rw [h.eq] at hvalues ⊢
  rw [describe_withChildren member p u text hvalues]
  exact h.withChildren (member.describe_dataType p u text s) (member.describe_items p u text s)
    (member.describe_properties p u text s)

theorem Prunes.name (h : Prunes s t) : t.name = s.name := by
  rw [h.eq]
  rfl

theorem Prunes.properties_getD (h : Prunes s t) :
    EntryWise Prunes (s.properties.getD []) (t.properties.getD []) ∨
      s.dataType = .object ∧ t.properties.getD [] = [] := by
  rcases h.properties_cases with hkept | ⟨hobject, -, hcut⟩
  · refine .inl ?_
    generalize s.properties = before at hkept
    generalize t.properties = after at hkept
    cases hkept with
    | none => exact .nil
    | some hmn => exact hmn
  · exact .inr ⟨hobject, by rw [hcut]; rfl⟩

/-- A correction of the type keeps or drops the children on both sides. -/
theorem Prunes.setType (h : Prunes s t) (d : DataType) : Prunes (s.setType d) (t.setType d) := by
  have hset : t.setType d =
      (s.setType d).withChildren (t.setType d).items (t.setType d).properties := by
    rw [h.eq]
    cases d <;> rfl
  rw [hset]
  cases d with
  | object =>
    rcases h.properties_getD with hkept | ⟨hobject, hcut⟩
    · exact .keep .none (.some hkept)
    · have hnone : (t.setType .object).properties = some [] := congrArg some hcut
      rw [hnone]
      exact .cut .none rfl rfl
  | array =>
    exact .keep (.some (PrunesFound.getD_object h.items)) .none
  | string | integer | number | boolean | file => exact .keep .none .none

theorem Prunes.overlay (h : Prunes s t) (o : FieldOverride) :
    Prunes (s.overlay o) (t.overlay o) := by
  have hedit {s t : Schema} (h : Prunes s t) : Prunes
      { s with
        name := (Text.contentOf? o.name).getD s.name
        description := correctText s.description o.description
        required := o.required.getD s.required
        deprecated := o.deprecated.getD s.deprecated
        default := correctText s.default o.default
        sample := correctText s.sample o.sample
        mock := correctText s.mock o.mock
        dateFormat := correctText s.dateFormat o.dateFormat }
      { t with
        name := (Text.contentOf? o.name).getD t.name
        description := correctText t.description o.description
        required := o.required.getD t.required
        deprecated := o.deprecated.getD t.deprecated
        default := correctText t.default o.default
        sample := correctText t.sample o.sample
        mock := correctText t.mock o.mock
        dateFormat := correctText t.dateFormat o.dateFormat } := by
    rw [h.eq]
    exact h.withChildren rfl rfl rfl
  unfold Schema.overlay
  cases o.dataType with
  | none => exact hedit h
  | some d => exact hedit (h.setType d)

theorem Prunes.correct (h : Prunes s t) (member : Member) (override : Option TypeOverride) :
    Prunes (member.correct override s) (member.correct override t) := by
  unfold Member.correct
  rw [h.name]
  split
  · exact h
  · exact h.overlay _

end EndpointDocs.Schema

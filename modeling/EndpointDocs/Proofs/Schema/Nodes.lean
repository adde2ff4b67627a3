import EndpointDocs.Overlay
import EndpointDocs.Proofs.OrderedMap

namespace EndpointDocs

namespace Schema

variable {s t i n : Schema} {m : OrderedMap Schema}

/-- The second schema is the first one or stands below it. -/
inductive HasNode : Schema → Schema → Prop
  | self (s : Schema) : HasNode s s
  | items {s i n : Schema} (items : s.items = some i) (below : HasNode i n) : HasNode s n
  | property {s n : Schema} {m : OrderedMap Schema} {e : String × Schema}
      (properties : s.properties = some m) (mem : e ∈ m) (below : HasNode e.2 n) : HasNode s n

/-- Each property stands under its own name, and no two under one. -/
def NamesProperties (s : Schema) : Prop :=
  ∀ m : OrderedMap Schema, s.properties = some m → m.keys.Nodup ∧ ∀ e ∈ m, e.1 = e.2.name

def HasOwnForm (s : Schema) : Prop :=
  hasOwnForm s.dataType s.items s.properties = true

theorem HasOwnForm.items_eq_none (h : s.HasOwnForm) (hd : s.dataType ≠ .array) :
    s.items = none := by
  unfold HasOwnForm hasOwnForm at h
  cases htype : s.dataType <;> simp_all

theorem HasOwnForm.properties_eq_none (h : s.HasOwnForm) (hd : s.dataType ≠ .object) :
    s.properties = none := by
  unfold HasOwnForm hasOwnForm at h
  cases htype : s.dataType <;> simp_all

/-- All nodes have the children that their types ask for, under the names of these. -/
def Sound (s : Schema) : Prop :=
  ∀ n, s.HasNode n → n.HasOwnForm ∧ n.NamesProperties

/-- Properties that a sound object can have. -/
structure SoundProperties (m : OrderedMap Schema) : Prop where
  nodup : m.keys.Nodup
  names : ∀ e ∈ m, e.1 = e.2.name
  sound : ∀ e ∈ m, e.2.Sound

/-- What holds of a node once it holds of its children holds of every tree. -/
theorem node_induction {P : Schema → Prop}
    (h : ∀ s : Schema, (∀ i, s.items = some i → P i) →
      (∀ m, s.properties = some m → ∀ e ∈ m, P e.2) → P s) (s : Schema) : P s := by
  induction hsize : sizeOf s using Nat.strongRecOn generalizing s with
  | _ size ih =>
    obtain ⟨_, _, _, _, _, _, _, _, _, _, _, items, properties⟩ := s
    apply h
    · rintro i rfl
      exact ih _ (by simp [← hsize]; omega) i rfl
    · rintro m rfl ⟨k, c⟩ he
      have hmem := List.sizeOf_lt_of_mem he
      exact ih _ (by simp [← hsize] at hmem ⊢; omega) c rfl

theorem entriesWellFormed_iff {entries : List (String × Schema)} :
    entriesWellFormed entries = true ↔ ∀ e ∈ entries, e.2.isWellFormed = true := by
  induction entries with
  | nil => simp [entriesWellFormed]
  | cons e es ih =>
    obtain ⟨k, s⟩ := e
    rw [entriesWellFormed, entryWellFormed, Bool.and_eq_true, ih, List.forall_mem_cons]

theorem isWellFormed_iff : s.isWellFormed = true ↔
    s.HasOwnForm ∧ (∀ i, s.items = some i → i.isWellFormed = true) ∧
      ∀ m, s.properties = some m → ∀ e ∈ m, e.2.isWellFormed = true := by
  obtain ⟨_, dataType, _, _, _, _, _, _, _, _, _, items, properties⟩ := s
  rw [isWellFormed, Bool.and_eq_true, Bool.and_eq_true, and_assoc]
  refine and_congr Iff.rfl (and_congr ?_ ?_)
  · cases items <;> simp [itemsWellFormed]
  · cases properties with
    | none => simp [mapWellFormed]
    | some m => simpa [mapWellFormed] using entriesWellFormed_iff

/-- The check of a whole tree is the check of each of its nodes. -/
theorem isWellFormed_iff_nodes :
    s.isWellFormed = true ↔ ∀ n, s.HasNode n → n.HasOwnForm := by
  constructor
  · intro h n hn
    induction hn with
    | self s => exact (isWellFormed_iff.mp h).1
    | items hi _ ih => exact ih ((isWellFormed_iff.mp h).2.1 _ hi)
    | property hp he _ ih => exact ih ((isWellFormed_iff.mp h).2.2 _ hp _ he)
  · induction s using node_induction with
    | h s items properties =>
      intro h
      refine isWellFormed_iff.mpr ⟨h s (.self s), ?_, ?_⟩
      · exact fun i hi => items i hi fun n hn => h n (.items hi hn)
      · exact fun m hm e he => properties m hm e he fun n hn => h n (.property hm he hn)

theorem sound_iff : s.Sound ↔ s.HasOwnForm ∧ (∀ i, s.items = some i → i.Sound) ∧
    ∀ m, s.properties = some m → SoundProperties m := by
  constructor
  · intro h
    refine ⟨(h s (.self s)).1, fun i hi n hn => h n (.items hi hn), fun m hm => ?_⟩
    obtain ⟨nodup, names⟩ := (h s (.self s)).2 m hm
    exact ⟨nodup, names, fun e he n hn => h n (.property hm he hn)⟩
  · rintro ⟨form, items, properties⟩ n hn
    cases hn with
    | self => exact ⟨form, fun m hm => ⟨(properties m hm).nodup, (properties m hm).names⟩⟩
    | items hi hn => exact items _ hi n hn
    | property hm he hn => exact (properties _ hm).sound _ he n hn

/-- A sound tree is one that passes the check and names its properties everywhere. -/
theorem sound_iff_isWellFormed :
    s.Sound ↔ s.isWellFormed = true ∧ ∀ n, s.HasNode n → n.NamesProperties := by
  rw [isWellFormed_iff_nodes]
  exact forall₂_and

theorem soundProperties_nil : SoundProperties [] :=
  ⟨List.nodup_nil, by simp, by simp⟩

theorem SoundProperties.put (hm : SoundProperties m) (hs : s.Sound) :
    SoundProperties (m.put s.name s) := by
  refine ⟨OrderedMap.nodup_keys_put hm.nodup _ _, ?_, ?_⟩
  · intro e he
    rcases OrderedMap.mem_put he with rfl | he
    · rfl
    · exact hm.names e he
  · intro e he
    rcases OrderedMap.mem_put he with rfl | he
    · exact hs
    · exact hm.sound e he

theorem SoundProperties.putAll {entries : List (String × Schema)} (hm : SoundProperties m)
    (names : ∀ e ∈ entries, e.1 = e.2.name) (sound : ∀ e ∈ entries, e.2.Sound) :
    SoundProperties (m.putAll entries) := by
  induction entries generalizing m with
  | nil => exact hm
  | cons e es ih =>
    obtain ⟨name, names⟩ := List.forall_mem_cons.mp names
    obtain ⟨he, sound⟩ := List.forall_mem_cons.mp sound
    have hput := hm.put he
    rw [← name] at hput
    exact ih hput names sound

theorem sound_object : object.Sound := by
  refine sound_iff.mpr ⟨rfl, by simp [object], ?_⟩
  intro m hm
  obtain rfl : [] = m := by simpa [object] using hm
  exact soundProperties_nil

theorem sound_scalar {d : DataType} (hd : d.isScalar = true) : (scalar d).Sound := by
  refine sound_iff.mpr ⟨?_, by simp [scalar], by simp [scalar]⟩
  cases d with
  | array | object => cases hd
  | string | integer | number | boolean | file => rfl

theorem sound_array (hi : i.Sound) : (array i).Sound := by
  refine sound_iff.mpr ⟨rfl, ?_, by simp [array]⟩
  intro j hj
  obtain rfl : i = j := by simpa [array] using hj
  exact hi

theorem sound_ofType (d : DataType) : (ofType d).Sound := by
  cases d with
  | object => exact sound_object
  | array => exact sound_array sound_object
  | string | integer | number | boolean | file => exact sound_scalar rfl

/-- What is said about a node, its name included, does not matter to it. -/
theorem Sound.edit (hs : s.Sound) (hd : t.dataType = s.dataType) (hi : t.items = s.items)
    (hp : t.properties = s.properties) : t.Sound := by
  rw [sound_iff, HasOwnForm] at hs ⊢
  rw [hd, hi, hp]
  exact hs

theorem Sound.properties (hs : s.Sound) : SoundProperties (s.properties.getD []) := by
  cases hp : s.properties with
  | none => exact soundProperties_nil
  | some m => exact (sound_iff.mp hs).2.2 m hp

theorem Sound.children (hs : s.Sound) {c : Schema} (hc : c ∈ s.children) : c.Sound := by
  obtain ⟨e, he, rfl⟩ := List.mem_map.mp hc
  exact hs.properties.sound e he

/-- Another type comes with the children that it asks for. -/
theorem Sound.setType (hs : s.Sound) (d : DataType) : (s.setType d).Sound := by
  cases d with
  | object =>
    refine sound_iff.mpr ⟨rfl, by simp [Schema.setType], ?_⟩
    intro m hm
    obtain rfl : s.properties.getD [] = m := by simpa [Schema.setType] using hm
    exact hs.properties
  | array =>
    refine sound_iff.mpr ⟨rfl, ?_, by simp [Schema.setType]⟩
    intro i hi
    obtain rfl : s.items.getD Schema.object = i := by simpa [Schema.setType] using hi
    cases hitems : s.items with
    | none => exact sound_object
    | some j => exact (sound_iff.mp hs).2.1 j hitems
  | string | integer | number | boolean | file =>
    exact sound_iff.mpr ⟨rfl, by simp [Schema.setType], by simp [Schema.setType]⟩

theorem Sound.overlay (hs : s.Sound) (o : FieldOverride) : (s.overlay o).Sound := by
  unfold Schema.overlay
  cases o.dataType with
  | none => exact hs.edit rfl rfl rfl
  | some d => exact (hs.setType d).edit rfl rfl rfl

end Schema

end EndpointDocs

import Mathlib.Data.List.Induction
import Mathlib.Data.List.Nodup
import EndpointDocs.OrderedMap

namespace EndpointDocs.OrderedMap

variable {α β : Type} {m : OrderedMap α} {k : String} {v : α} {e : String × α}
  {entries : List (String × α)} {f : String → String} {g : α → β}

theorem mem_put (h : e ∈ m.put k v) : e = (k, v) ∨ e ∈ m := by
  induction m with
  | nil => exact .inl (List.mem_singleton.mp h)
  | cons f m ih =>
    rw [put] at h
    split at h
    · rcases List.mem_cons.mp h with rfl | h
      · exact .inl rfl
      · exact .inr (List.mem_cons_of_mem _ h)
    · rcases List.mem_cons.mp h with rfl | h
      · exact .inr List.mem_cons_self
      · exact (ih h).imp_right (List.mem_cons_of_mem _)

theorem mem_putAll (h : e ∈ m.putAll entries) : e ∈ m ∨ e ∈ entries := by
  induction entries generalizing m with
  | nil => exact .inl h
  | cons x entries ih =>
    rcases ih h with h | h
    · rcases mem_put h with rfl | h
      · exact .inr List.mem_cons_self
      · exact .inl h
    · exact .inr (List.mem_cons_of_mem _ h)

theorem mem_of_mem_ofEntries (h : e ∈ ofEntries entries) : e ∈ entries := by
  rcases mem_putAll h with h | h
  · cases h
  · exact h

theorem putAll_append (m : OrderedMap α) (entries more : List (String × α)) :
    m.putAll (entries ++ more) = (m.putAll entries).putAll more :=
  List.foldl_append

/-- Of the entries put in for a key the last one counts. -/
theorem get?_putAll (m : OrderedMap α) (entries : List (String × α)) (k : String) :
    (m.putAll entries).get? k = (entries.reverse.lookup k).or (m.get? k) := by
  induction entries using List.reverseRecOn with
  | nil => rfl
  | append_singleton entries e ih =>
    have hlast : m.putAll (entries ++ [e]) = (m.putAll entries).put e.1 e.2 := putAll_append m _ _
    rw [hlast, List.reverse_append, List.reverse_singleton, List.singleton_append, List.lookup_cons]
    by_cases hk : k = e.1
    · subst hk
      rw [get?_put_self, beq_self_eq_true]
      rfl
    · rw [get?_put_of_ne _ _ hk, ih, beq_false_of_ne hk]

theorem mem_keys_putAll : k ∈ (m.putAll entries).keys ↔ k ∈ m.keys ∨ k ∈ entries.map Prod.fst := by
  induction entries generalizing m with
  | nil => simp [putAll]
  | cons e entries ih =>
    have hput : k ∈ (m.put e.1 e.2).keys ↔ k ∈ m.keys ∨ k = e.1 := by
      rw [keys_put]
      split
      · next he =>
        refine ⟨.inl, fun h => h.elim id ?_⟩
        rintro rfl
        exact he
      · rw [List.mem_append, List.mem_singleton]
    rw [List.map_cons, List.mem_cons, ← or_assoc, ← hput]
    exact ih

theorem put_of_not_mem (h : k ∉ m.keys) (v : α) : m.put k v = m ++ [(k, v)] := by
  induction m with
  | nil => rfl
  | cons e m ih =>
    obtain ⟨he, hm⟩ := not_or.mp (mt List.mem_cons.mpr h)
    rw [put, if_neg (Ne.symm he), ih hm]
    rfl

/-- Entries of which no two have one key are the map that they make. -/
theorem ofEntries_of_nodup (h : keys entries |>.Nodup) : ofEntries entries = entries := by
  suffices hm : ∀ (m : OrderedMap α) (rest : List (String × α)),
      (keys (m ++ rest)).Nodup → m.putAll rest = m ++ rest from hm [] entries h
  intro m rest
  induction rest generalizing m with
  | nil => exact fun _ => (List.append_nil m).symm
  | cons e rest ih =>
    intro hnodup
    have hkey : e.1 ∉ m.keys := by
      intro hmem
      rw [keys, List.map_append, List.map_cons, List.nodup_append] at hnodup
      exact hnodup.2.2 _ hmem _ List.mem_cons_self rfl
    have hput : m.put e.1 e.2 = m ++ [e] := put_of_not_mem hkey e.2
    have hrest : (m.put e.1 e.2).putAll rest = m.put e.1 e.2 ++ rest :=
      ih _ (by rwa [hput, ← List.append_cons])
    rw [hput, ← List.append_cons] at hrest
    rw [← hrest, ← hput]
    rfl

theorem mem_of_get? (h : m.get? k = some v) : (k, v) ∈ m := by
  obtain ⟨l, r, rfl, _⟩ := List.lookup_eq_some_iff.mp h
  simp

theorem mem_keys_of_get? (h : m.get? k = some v) : k ∈ m.keys :=
  List.mem_map_of_mem (mem_of_get? h)

theorem get?_ne_none (h : k ∈ m.keys) : m.get? k ≠ none := by
  obtain ⟨e, he, rfl⟩ := List.mem_map.mp h
  intro hnone
  have hother := List.lookup_eq_none_iff.mp hnone e he
  simp at hother

theorem get?_of_mem (hnodup : m.keys.Nodup) (h : (k, v) ∈ m) : m.get? k = some v := by
  obtain ⟨w, hw⟩ := Option.ne_none_iff_exists'.mp (get?_ne_none (List.mem_map_of_mem h))
  have hsame : (k, w) = (k, v) := List.inj_on_of_nodup_map hnodup (mem_of_get? hw) h rfl
  rw [hw, (Prod.mk.inj hsame).2]

theorem get?_append (m more : OrderedMap α) (k : String) :
    OrderedMap.get? (m ++ more) k = (m.get? k).or (more.get? k) :=
  List.lookup_append

/-- A look-up among the entries with certain keys. -/
theorem get?_filter_keys (p : String → Bool) (m : OrderedMap α) (k : String) :
    OrderedMap.get? (m.filter fun e => p e.1) k = if p k then m.get? k else none := by
  induction m with
  | nil => simp [get?]
  | cons e m ih =>
    obtain ⟨key, value⟩ := e
    simp only [get?, List.filter_cons, List.lookup_cons] at ih ⊢
    by_cases hkey : k = key
    · subst hkey
      cases hp : p k <;> simp [hp, ih]
    · have hne : (k == key) = false := beq_false_of_ne hkey
      cases hp : p key <;> simp [ih, hne, List.lookup_cons]

/-- The map with its keys and its values replaced. -/
def mapEntries (f : String → String) (g : α → β) (m : OrderedMap α) : OrderedMap β :=
  m.map fun e => (f e.1, g e.2)

/-- A look-up under a replaced key, if no other key is replaced by it. -/
theorem get?_mapEntries {x : String} (h : ∀ k' ∈ m.keys, f k' = x ↔ k' = k) :
    (m.mapEntries f g).get? x = (m.get? k).map g := by
  induction m with
  | nil => rfl
  | cons e m ih =>
    obtain ⟨key, value⟩ := e
    obtain ⟨he, hm⟩ := List.forall_mem_cons.mp h
    have ih := ih hm
    simp only [mapEntries, get?, List.map_cons, List.lookup_cons] at ih ⊢
    by_cases hk : key = k
    · have hx : f key = x := he.mpr hk
      simp [hk, ← hx]
    · have hx : ¬ f key = x := fun hx => hk (he.mp hx)
      have hk' : (k == key) = false := by simpa using fun h => hk h.symm
      have hx' : (x == f key) = false := by simpa using fun h => hx h.symm
      simpa [hk', hx'] using ih

theorem put_mapEntries (h : ∀ k' ∈ m.keys, f k' = f k ↔ k' = k) :
    (m.put k v).mapEntries f g = (m.mapEntries f g).put (f k) (g v) := by
  induction m with
  | nil => rfl
  | cons e m ih =>
    obtain ⟨he, hm⟩ := List.forall_mem_cons.mp h
    have ih := ih hm
    simp only [mapEntries, put, List.map_cons] at ih ⊢
    by_cases hk : e.1 = k
    · simp [hk]
    · simp [hk, mt he.mp hk, ih]

theorem putAll_mapValues (m : OrderedMap α) (entries : List (String × α)) :
    (m.putAll entries).mapEntries id g = (m.mapEntries id g).putAll (mapEntries id g entries) := by
  induction entries generalizing m with
  | nil => rfl
  | cons e entries ih =>
    have hput : (m.put e.1 e.2).mapEntries id g = (m.mapEntries id g).put e.1 (g e.2) :=
      put_mapEntries fun _ _ => Iff.rfl
    exact (ih (m.put e.1 e.2)).trans (by rw [hput]; rfl)

theorem ofEntries_map (h : ∀ k ∈ entries.map Prod.fst, ∀ k' ∈ entries.map Prod.fst,
    f k' = f k ↔ k' = k) :
    ofEntries (entries.map fun e => (f e.1, g e.2)) = (ofEntries entries).mapEntries f g := by
  suffices hm : ∀ (m : OrderedMap α) (rest : List (String × α)),
      (∀ k' ∈ m.keys, k' ∈ entries.map Prod.fst) → (∀ e ∈ rest, e ∈ entries) →
        (m.mapEntries f g).putAll (rest.map fun e => (f e.1, g e.2)) =
          (m.putAll rest).mapEntries f g from
    hm [] entries (by simp [keys]) fun _ he => he
  intro m rest hkeys hrest
  induction rest generalizing m with
  | nil => rfl
  | cons e rest ih =>
    obtain ⟨he, hrest⟩ := List.forall_mem_cons.mp hrest
    have hkey : e.1 ∈ entries.map Prod.fst := List.mem_map_of_mem he
    have hput : (m.mapEntries f g).put (f e.1) (g e.2) = (m.put e.1 e.2).mapEntries f g :=
      (put_mapEntries fun k' hk' => h _ hkey k' (hkeys k' hk')).symm
    rw [List.map_cons, putAll, List.foldl_cons, hput]
    refine ih (m.put e.1 e.2) ?_ hrest
    intro k hk
    obtain ⟨x, hx, rfl⟩ := List.mem_map.mp hk
    rcases mem_put hx with rfl | hx
    · exact hkey
    · exact hkeys _ (List.mem_map_of_mem hx)

/-- The maps have the same keys in the same order, and related values for them. -/
inductive EntryWise (R : α → β → Prop) : OrderedMap α → OrderedMap β → Prop
  | nil : EntryWise R [] []
  | cons {k : String} {v : α} {w : β} {m : OrderedMap α} {n : OrderedMap β} (value : R v w)
      (rest : EntryWise R m n) : EntryWise R ((k, v) :: m) ((k, w) :: n)

variable {R : α → β → Prop} {n : OrderedMap β} {w : β}

theorem EntryWise.get? (h : EntryWise R m n) (k : String) :
    Option.Rel R (m.get? k) (n.get? k) := by
  induction h with
  | nil => exact .none
  | @cons key _ _ _ _ value _ ih =>
    simp only [OrderedMap.get?, List.lookup_cons] at ih ⊢
    cases k == key with
    | true => exact .some value
    | false => exact ih

theorem EntryWise.put (h : EntryWise R m n) (hv : R v w) (k : String) :
    EntryWise R (m.put k v) (n.put k w) := by
  induction h with
  | nil => exact .cons hv .nil
  | @cons key _ _ _ _ value rest ih =>
    rw [OrderedMap.put, OrderedMap.put]
    by_cases hk : key = k
    · rw [if_pos hk, if_pos hk]
      exact .cons hv rest
    · rw [if_neg hk, if_neg hk]
      exact .cons value ih

theorem EntryWise.find?_values {p : α → Bool} {q : β → Bool} (h : EntryWise R m n)
    (hpq : ∀ v w, R v w → p v = q w) :
    Option.Rel R (m.values.find? p) (n.values.find? q) := by
  induction h with
  | nil => exact .none
  | cons value _ ih =>
    simp only [values, List.map_cons, List.find?_cons] at ih ⊢
    rw [hpq _ _ value]
    split
    · exact .some value
    · exact ih

theorem EntryWise.ofEntries {fs : List (String × β)} (h : EntryWise R entries fs) :
    EntryWise R (ofEntries entries) (ofEntries fs) := by
  suffices hm : ∀ {m : OrderedMap α} {n : OrderedMap β}, EntryWise R m n →
      EntryWise R (m.putAll entries) (n.putAll fs) from hm .nil
  induction h with
  | nil => exact id
  | cons value _ ih => exact fun hm => ih (hm.put value _)

theorem EntryWise.exists_of_mem (h : EntryWise R m n) {e : String × β} (he : e ∈ n) :
    ∃ v, (e.1, v) ∈ m ∧ R v e.2 := by
  induction h with
  | nil => cases he
  | @cons k v w _ _ value _ ih =>
    rcases List.mem_cons.mp he with rfl | he
    · exact ⟨v, List.mem_cons_self, value⟩
    · obtain ⟨v, hv, hvalue⟩ := ih he
      exact ⟨v, List.mem_cons_of_mem _ hv, hvalue⟩

theorem entryWise_self {R : α → α → Prop} (h : ∀ e ∈ m, R e.2 e.2) : EntryWise R m m := by
  induction m with
  | nil => exact .nil
  | cons e m ih =>
    obtain ⟨he, hm⟩ := List.forall_mem_cons.mp h
    exact .cons he (ih hm)

/-- A value is replaced by a related one, and all others by themselves. -/
theorem entryWise_put {R : α → α → Prop} {w : α} (hnodup : m.keys.Nodup) (hget : m.get? k = some v)
    (hvalue : R v w) (hself : ∀ e ∈ m, e.1 ≠ k → R e.2 e.2) : EntryWise R m (m.put k w) := by
  induction m with
  | nil => cases hget
  | cons e m ih =>
    obtain ⟨key, value⟩ := e
    obtain ⟨hnew, hnodup⟩ := List.nodup_cons.mp hnodup
    obtain ⟨he, hm⟩ := List.forall_mem_cons.mp hself
    by_cases hk : key = k
    · subst hk
      rw [get?, List.lookup_cons_self, Option.some.injEq] at hget
      subst hget
      rw [put, if_pos rfl]
      refine .cons hvalue (entryWise_self fun e hmem => hm e hmem ?_)
      rintro rfl
      exact hnew (List.mem_map.mpr ⟨e, hmem, rfl⟩)
    · have hk' : (k == key) = false := beq_false_of_ne (Ne.symm hk)
      rw [get?, List.lookup_cons, hk'] at hget
      rw [put, if_neg hk]
      exact .cons (he hk) (ih hnodup hget hm)

theorem entryWise_zip {vs : List α} {ws : List β} (h : List.Forall₂ R vs ws) (ks : List String) :
    EntryWise R (ks.zip vs) (ks.zip ws) := by
  induction h generalizing ks with
  | nil =>
    rw [List.zip_nil_right, List.zip_nil_right]
    exact .nil
  | cons hv _ ih =>
    cases ks with
    | nil => exact .nil
    | cons k ks => exact .cons hv (ih ks)

end EndpointDocs.OrderedMap

namespace EndpointDocs

/-- Entries in order. A map built by `put` holds no key twice. -/
abbrev OrderedMap (α : Type) := List (String × α)

namespace OrderedMap

variable {α : Type}

def get? (m : OrderedMap α) (k : String) : Option α :=
  m.lookup k

def keys (m : OrderedMap α) : List String :=
  m.map Prod.fst

def values (m : OrderedMap α) : List α :=
  m.map Prod.snd

/-- Gives `k` the value `v`: in its place when `k` is there, at the end otherwise. -/
def put : OrderedMap α → String → α → OrderedMap α
  | [], k, v => [(k, v)]
  | e :: m, k, v => if e.1 = k then (k, v) :: m else e :: put m k v

/-- Puts the entries in, one after the other. -/
def putAll (m : OrderedMap α) (entries : List (String × α)) : OrderedMap α :=
  entries.foldl (fun m e => m.put e.1 e.2) m

/-- The map of the entries, of which the last one for a key counts. -/
def ofEntries (entries : List (String × α)) : OrderedMap α :=
  putAll [] entries

theorem get?_put_self (m : OrderedMap α) (k : String) (v : α) : (m.put k v).get? k = some v := by
  induction m with
  | nil => simp [put, get?]
  | cons e m ih =>
    obtain ⟨key, value⟩ := e
    by_cases h : key = k
    · simp [put, get?, h]
    · have hk : (k == key) = false := by simp [Ne.symm h]
      simpa [put, get?, h, List.lookup_cons, hk] using ih

theorem get?_put_of_ne (m : OrderedMap α) {k k' : String} (v : α) (hne : k' ≠ k) :
    (m.put k v).get? k' = m.get? k' := by
  have hk : (k' == k) = false := by simp [hne]
  induction m with
  | nil => simp [put, get?, List.lookup_cons, hk]
  | cons e m ih =>
    obtain ⟨key, value⟩ := e
    by_cases h : key = k
    · subst h; simp [put, get?, List.lookup_cons, hk]
    · by_cases h' : k' == key
      · simp [put, get?, h, List.lookup_cons, h']
      · have h'' : (k' == key) = false := by simpa using h'
        simpa [put, get?, h, List.lookup_cons, h''] using ih

theorem keys_put (m : OrderedMap α) (k : String) (v : α) :
    (m.put k v).keys = if k ∈ m.keys then m.keys else m.keys ++ [k] := by
  induction m with
  | nil => simp [put, keys]
  | cons e m ih =>
    by_cases h : e.1 = k
    · subst h; simp [put, keys]
    · have hk : k ≠ e.1 := fun heq => h heq.symm
      simp only [keys] at ih
      by_cases hm : k ∈ m.map Prod.fst <;> simp [put, keys, h, hk, ih, hm]

theorem nodup_keys_put {m : OrderedMap α} (h : m.keys.Nodup) (k : String) (v : α) :
    (m.put k v).keys.Nodup := by
  rw [keys_put]
  split
  · exact h
  · next hk =>
    refine List.nodup_append.2 ⟨h, by simp, fun a ha b hb hab => hk ?_⟩
    rw [← List.mem_singleton.1 hb, ← hab]
    exact ha

theorem nodup_keys_putAll {m : OrderedMap α} (h : m.keys.Nodup) (entries : List (String × α)) :
    (m.putAll entries).keys.Nodup := by
  induction entries generalizing m with
  | nil => exact h
  | cons e es ih => exact ih (nodup_keys_put h e.1 e.2)

end OrderedMap

end EndpointDocs

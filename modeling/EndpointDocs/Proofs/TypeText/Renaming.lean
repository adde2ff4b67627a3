import EndpointDocs.Proofs.TypeText.Replacing

namespace EndpointDocs.TypeText

/-- A name without dots and colons. -/
def IsIdentifier (x : String) : Prop :=
  x ≠ "" ∧ IsName x.toList ∧ '.' ∉ x.toList ∧ ':' ∉ x.toList

instance (x : String) : Decidable (IsIdentifier x) :=
  inferInstanceAs (Decidable (x ≠ "" ∧ IsName x.toList ∧ '.' ∉ x.toList ∧ ':' ∉ x.toList))

/-- A name in the text is `x` or a path that ends in it. -/
def HasEnding (text x : String) : Prop :=
  ∃ n ∈ names text, isPathSuffix n x = true

/-- The identifier is no part of a longer path in the text. -/
def Alone (x text : String) : Prop :=
  ∀ n ∈ names text, isPathSuffix n x = true → n = x

/-- Renames whole names. -/
def rename (x y text : String) : String :=
  substitute [(x, y)] text

variable {x y text : String}

theorem putsNames_rename (x : String) (hy : IsIdentifier y) : PutsNames [(x, y)] := by
  intro k v hv
  obtain ⟨-, rfl⟩ : k = x ∧ v = y := by simpa using hv
  exact ⟨hy.1, hy.2.1⟩

theorem replaceName_single (x y : String) (n : List Char) (hn : n ≠ []) :
    replaceName [(x, y)] n = if n = x.toList then y.toList else n := by
  rw [replaceName_of_ne_nil hn, OrderedMap.get?, List.lookup_singleton]
  have hkey : (String.ofList n == x) = decide (n = x.toList) := by
    rw [Bool.eq_iff_iff]
    simp only [beq_iff_eq, decide_eq_true_eq]
    exact ⟨fun h => by rw [← h, String.toList_ofList], fun h => by rw [h, String.ofList_toList]⟩
  rw [hkey]
  by_cases h : n = x.toList <;> simp [h]

theorem names_of_isIdentifier (hx : IsIdentifier x) : names x = [x] := by
  rw [names, namesOf_name hx.2.1, List.map_singleton, String.ofList_toList]

theorem isPathSuffix_self (hx : x ≠ "") : isPathSuffix x x = true := by
  simp [isPathSuffix, hx]

theorem hasEnding_of_mem_names (hx : x ≠ "") (h : x ∈ names text) : HasEnding text x :=
  ⟨x, h, isPathSuffix_self hx⟩

theorem Alone.of_subset {s : String} (h : Alone x text) (hs : ∀ n ∈ names s, n ∈ names text) :
    Alone x s :=
  fun n hn => h n (hs n hn)

theorem alone_of_not_hasEnding (h : ¬ HasEnding text x) : Alone x text :=
  fun n hn hend => absurd ⟨n, hn, hend⟩ h

theorem isPathSuffix_iff {n : String} (hx : x ≠ "") : isPathSuffix n x = true ↔
    n = x ∨ ∃ u, n.toList = u ++ [':', ':'] ++ x.toList ∨ n.toList = u ++ ['.'] ++ x.toList := by
  have hsuffix (s : String) (u : String) :
      (Text.stripSuffix? s u).isSome = true ↔ ∃ v, u.toList = v ++ s.toList := by
    rw [Text.stripSuffix?, Option.isSome_map, Option.isSome_iff_exists]
    exact exists_congr fun v => Chars.isSuffixOf?_eq_some_iff
  rw [isPathSuffix, Bool.and_eq_true, Bool.or_eq_true]
  simp only [decide_eq_true_eq, hx, ne_eq, not_false_eq_true, true_and]
  refine or_congr Iff.rfl ?_
  cases h : Text.stripSuffix? x n with
  | none =>
    have hnone : ¬ ∃ v, n.toList = v ++ x.toList := by
      rw [← hsuffix]
      simp [h]
    simp only [Bool.false_eq_true, false_iff]
    rintro ⟨u, hu | hu⟩
    · exact hnone ⟨_, hu⟩
    · exact hnone ⟨_, hu⟩
  | some head =>
    obtain ⟨cs, hcs, rfl⟩ := Option.map_eq_some_iff.mp h
    have hn : n.toList = cs ++ x.toList := Chars.isSuffixOf?_eq_some_iff.mp hcs
    simp only [Bool.or_eq_true, hsuffix, String.toList_ofList, hn, List.append_cancel_right_eq]
    exact exists_or.symm

theorem not_hasEnding_empty (hx : x ≠ "") : ¬ HasEnding "" x := by
  rintro ⟨n, hn, hend⟩
  have hempty : n = "" := by simpa [names, namesOf] using hn
  subst hempty
  rcases (isPathSuffix_iff hx).mp hend with heq | ⟨u, hu | hu⟩
  · exact hx heq.symm
  · simp at hu
  · simp at hu

theorem mem_of_mem_namesOf {cs n : List Char} {c : Char} (h : n ∈ namesOf cs) (hc : c ∈ n) :
    c ∈ cs := by
  induction cs using names_induction with
  | name m hm =>
    rw [namesOf_name hm, List.mem_singleton] at h
    exact h ▸ hc
  | gap m d cs hm hd ih =>
    rw [namesOf_gap m cs hd, namesOf_name hm] at h
    rcases List.mem_append.mp h with h | h
    · rw [List.mem_singleton.mp h] at hc
      exact List.mem_append_left _ hc
    · exact List.mem_append_right _ (List.mem_cons_of_mem _ (ih h))

/-- A text without one of its characters does not mention a name. -/
theorem not_hasEnding_of_not_mem {c : Char} (hc : c ∈ x.toList) (h : c ∉ text.toList) :
    ¬ HasEnding text x := by
  have hx : x ≠ "" := by
    rintro rfl
    simp at hc
  rintro ⟨n, hn, hend⟩
  have hmem : c ∈ n.toList := by
    rcases (isPathSuffix_iff hx).mp hend with rfl | ⟨u, hu | hu⟩
    · exact hc
    · exact hu ▸ List.mem_append_right _ hc
    · exact hu ▸ List.mem_append_right _ hc
  exact h (mem_of_mem_namesOf (mem_names.mp hn) hmem)

theorem Alone.substitute {b : Bindings} (h : Alone x text) (hb : ∀ v ∈ b.values, Alone x v) :
    Alone x (substitute b text) := by
  intro n hn
  rcases names_substitute hn with hn | ⟨k, v, hv, hn⟩
  · exact h n hn
  · exact hb v (List.mem_map_of_mem hv) n hn

theorem Alone.arguments {argument : String} (h : Alone x text)
    (ha : argument ∈ TypeText.arguments text) : Alone x argument :=
  h.of_subset fun _ hn => names_arguments ha hn

theorem rename_name (hx : x ≠ "") {n : List Char} (hn : IsName n) :
    replaceNames [(x, y)] n = if n = x.toList then y.toList else n := by
  rw [replaceNames_name hn]
  by_cases hnil : n = []
  · subst hnil
    have hne : ¬ [] = x.toList := fun h => hx (String.toList_eq_nil_iff.mp h.symm)
    simp [hne, replaceName]
  · exact replaceName_single x y n hnil

theorem toList_rename (x y text : String) :
    (rename x y text).toList = replaceNames [(x, y)] text.toList :=
  toList_substitute _ _

/-- What does not mention the identifier stays. -/
theorem rename_of_not_mem (h : x ∉ names text) : rename x y text = text := by
  apply String.toList_injective
  rw [toList_rename]
  apply replaceNames_of_unbound
  rintro k hk -
  rw [List.mem_singleton.mp hk]
  rwa [mem_names] at h

theorem mem_names_rename (hx : x ≠ "") (hy : IsIdentifier y) (h : x ∈ names text) :
    y ∈ names (rename x y text) := by
  rw [mem_names] at h
  rw [mem_names, toList_rename]
  generalize text.toList = cs at h ⊢
  induction cs using names_induction with
  | name n hn =>
    rw [namesOf_name hn, List.mem_singleton] at h
    rw [rename_name hx hn, if_pos h.symm, namesOf_name hy.2.1]
    exact List.mem_singleton.mpr rfl
  | gap n c cs hn hc ih =>
    rw [namesOf_gap n cs hc, namesOf_name hn, List.mem_append, List.mem_singleton] at h
    rw [replaceNames_gap _ n cs hc, namesOf_gap _ _ hc, rename_name hx hn]
    rcases h with h | h
    · rw [if_pos h.symm, namesOf_name hy.2.1]
      exact List.mem_append_left _ (List.mem_singleton.mpr rfl)
    · exact List.mem_append_right _ (ih h)

theorem not_mem_names_rename (hx : x ≠ "") (hy : IsIdentifier y) (hne : x ≠ y) :
    x ∉ names (rename x y text) := by
  rw [mem_names, toList_rename]
  have hput : ∀ n, IsName n → x.toList ∉ namesOf (replaceNames [(x, y)] n) := by
    intro n hn
    rw [rename_name hx hn]
    split
    · rw [namesOf_name hy.2.1, List.mem_singleton]
      exact fun h => hne (String.toList_injective h)
    · next h =>
      rw [namesOf_name hn, List.mem_singleton]
      exact Ne.symm h
  induction text.toList using names_induction with
  | name n hn => exact hput n hn
  | gap n c cs hn hc ih =>
    rw [replaceNames_gap _ n cs hc, namesOf_gap _ _ hc, List.mem_append, not_or]
    exact ⟨hput n hn, ih⟩

theorem names_rename (hy : IsIdentifier y) {n : String} (h : n ∈ names (rename x y text)) :
    n ∈ names text ∨ n = y := by
  rcases names_substitute h with h | ⟨k, v, hv, hn⟩
  · exact .inl h
  · obtain ⟨-, rfl⟩ : k = x ∧ v = y := by simpa using hv
    exact .inr (by simpa [names_of_isIdentifier hy] using hn)

/-- A name that the text does not mention can be put in and taken out again. -/
theorem rename_rename (hx : IsIdentifier x) (hy : IsIdentifier y) (h : y ∉ names text) :
    rename y x (rename x y text) = text := by
  apply String.toList_injective
  rw [toList_rename, toList_rename]
  rw [mem_names] at h
  generalize text.toList = cs at h ⊢
  induction cs using names_induction with
  | name n hn =>
    rw [namesOf_name hn, List.mem_singleton] at h
    rw [rename_name hx.1 hn]
    split
    · next heq => rw [rename_name hy.1 hy.2.1, if_pos rfl, heq]
    · rw [rename_name hy.1 hn, if_neg (Ne.symm h)]
  | gap n c cs hn hc ih =>
    rw [namesOf_gap n cs hc, namesOf_name hn, List.mem_append, List.mem_singleton, not_or] at h
    rw [replaceNames_gap _ n cs hc, replaceNames_gap _ _ _ hc, ih h.2, rename_name hx.1 hn]
    split
    · next heq => rw [rename_name hy.1 hy.2.1, if_pos rfl, heq]
    · rw [rename_name hy.1 hn, if_neg (Ne.symm h.1)]

/-- A text without either of two names is the same as another one exactly if it is so renamed. -/
theorem rename_eq_iff {n : String} (hx : x ≠ "") (hy : IsIdentifier y) (hn : x ∉ names n)
    (h : x ∉ names text ∨ y ∉ names n) : rename x y text = n ↔ text = n := by
  by_cases hmem : x ∈ names text
  · have hyn : y ∉ names n := h.resolve_left (not_not_intro hmem)
    refine iff_of_false ?_ ?_
    · rintro rfl
      exact hyn (mem_names_rename hx hy hmem)
    · rintro rfl
      exact hn hmem
  · rw [rename_of_not_mem hmem]

/-- One name in place of another. -/
def renameName (x y k : String) : String :=
  if k = x then y else k

theorem rename_eq_renameName {k : String} (hx : IsIdentifier x) (h : k ≠ x → x ∉ names k) :
    rename x y k = renameName x y k := by
  unfold renameName
  split
  · next heq =>
    apply String.toList_injective
    rw [toList_rename, heq, rename_name hx.1 hx.2.1, if_pos rfl]
  · next hne => exact rename_of_not_mem (h hne)

theorem rename_self (hx : IsIdentifier x) : rename x y x = y := by
  rw [rename_eq_renameName hx (fun h => absurd rfl h), renameName, if_pos rfl]

/-- Names of which `x` and `y` are not both ones are not merged. -/
theorem renameName_eq_iff {l : List String} {k k' : String} (h : x ∉ l ∨ y ∉ l) (hk : k ∈ l)
    (hk' : k' ∈ l) : renameName x y k = renameName x y k' ↔ k = k' := by
  constructor
  · unfold renameName
    split_ifs with hx hx'
    · rw [hx, hx']
      exact fun _ => rfl
    · rintro rfl
      exact absurd hk' (h.resolve_left (not_not_intro (hx ▸ hk)))
    · rintro rfl
      exact absurd hk (h.resolve_left (not_not_intro (‹k' = x› ▸ hk')))
    · exact id
  · exact fun heq => by rw [heq]

theorem rename_replaceName {b : Bindings} {n : List Char} (hx : x ≠ "") (hy : IsIdentifier y)
    (hn : IsName n) (hb : ∀ k ∈ b.keys,
      renameName x y k = renameName x y (String.ofList n) → k = String.ofList n) :
    replaceNames [(x, y)] (replaceName b n) =
      replaceName (b.mapEntries (renameName x y) (rename x y)) (replaceNames [(x, y)] n) := by
  by_cases hnil : n = []
  · subst hnil
    rfl
  have hput : replaceNames [(x, y)] n = (renameName x y (String.ofList n)).toList := by
    rw [rename_name hx hn, renameName]
    by_cases h : n = x.toList
    · simp [h]
    · have hne : String.ofList n ≠ x := fun heq => h (by rw [← heq, String.toList_ofList])
      rw [if_neg h, if_neg hne, String.toList_ofList]
  have hne : replaceNames [(x, y)] n ≠ [] := mt (putsNames_rename x hy).eq_nil_iff.mp hnil
  have hkeys : ∀ k ∈ b.keys,
      renameName x y k = renameName x y (String.ofList n) ↔ k = String.ofList n :=
    fun k hk => ⟨hb k hk, fun heq => by rw [heq]⟩
  rw [replaceName_of_ne_nil hnil, replaceName_of_ne_nil hne, hput, String.ofList_toList,
    OrderedMap.get?_mapEntries hkeys]
  cases b.get? (String.ofList n) with
  | none => exact hput
  | some v => exact (toList_rename x y v).symm

/-- Renaming `x` to `y` makes none of the names one of the parameters. -/
def KeepsApart (x y : String) (parameters names : List String) : Prop :=
  ∀ q ∈ parameters, ∀ n ∈ names, renameName x y q = renameName x y n → q = n

/-- A name can be renamed before or after others are bound, unless one gets into the place of the
other. -/
theorem rename_substitute {b : Bindings} (hx : x ≠ "") (hy : IsIdentifier y)
    (hb : KeepsApart x y b.keys (names text)) :
    rename x y (substitute b text) =
      substitute (b.mapEntries (renameName x y) (rename x y)) (rename x y text) := by
  apply String.toList_injective
  rw [toList_rename, toList_substitute, toList_substitute, toList_rename]
  have hnames : ∀ n ∈ namesOf text.toList, ∀ k ∈ b.keys,
      renameName x y k = renameName x y (String.ofList n) → k = String.ofList n :=
    fun n hn k hk => hb k hk _ (mem_names.mpr (by simpa using hn))
  generalize text.toList = cs at hnames
  have hput {n : List Char} (hn : IsName n) : IsName (replaceNames [(x, y)] n) := by
    rw [replaceNames_name hn]
    exact (putsNames_rename x hy).isName_replaceName hn
  induction cs using names_induction with
  | name n hn =>
    rw [replaceNames_name hn, replaceNames_name (hput hn)]
    exact rename_replaceName hx hy hn (hnames n (by simp [namesOf_name hn]))
  | gap n c cs hn hc ih =>
    rw [namesOf_gap n cs hc, namesOf_name hn, List.singleton_append, List.forall_mem_cons] at hnames
    rw [replaceNames_gap b n cs hc, replaceNames_gap _ _ _ hc, replaceNames_gap _ n cs hc,
      replaceNames_gap _ _ _ hc, replaceNames_name hn, replaceNames_name (hput hn),
      rename_replaceName hx hy hn hnames.1, ih hnames.2]

def renameBindings (x y : String) (b : Bindings) : Bindings :=
  b.mapEntries (renameName x y) (rename x y)

theorem mem_keys_bind {parameters arguments : List String} {k : String}
    (h : k ∈ (bind parameters arguments).keys) : k ∈ parameters := by
  obtain ⟨e, he, rfl⟩ := List.mem_map.mp h
  exact (List.of_mem_zip (OrderedMap.mem_of_mem_ofEntries he)).1

theorem mem_values_bind {parameters arguments : List String} {v : String}
    (h : v ∈ (bind parameters arguments).values) : v ∈ arguments := by
  obtain ⟨e, he, rfl⟩ := List.mem_map.mp h
  exact (List.of_mem_zip (OrderedMap.mem_of_mem_ofEntries he)).2

theorem bind_map (parameters arguments : List String) (g : String → String) :
    bind parameters (arguments.map g) = (bind parameters arguments).mapEntries id g := by
  rw [bind, List.zip_map_right, bind]
  exact OrderedMap.ofEntries_map (f := id) fun _ _ _ _ => Iff.rfl

theorem bind_rename {parameters : List String} (h : x ∉ parameters ∨ y ∉ parameters)
    (arguments : List String) :
    bind (parameters.map (renameName x y)) (arguments.map (rename x y)) =
      renameBindings x y (bind parameters arguments) := by
  have hmem : ∀ k ∈ (parameters.zip arguments).map Prod.fst, k ∈ parameters := by
    intro k hk
    obtain ⟨e, he, rfl⟩ := List.mem_map.mp hk
    exact (List.of_mem_zip he).1
  rw [bind, List.zip_map, bind, renameBindings, ← OrderedMap.ofEntries_map]
  · rfl
  · exact fun k hk k' hk' => renameName_eq_iff h (hmem k' hk') (hmem k hk)

end EndpointDocs.TypeText

import EndpointDocs.Proofs.TypeText.Renaming

namespace EndpointDocs.TypeText

variable {x y text : String}

theorem takeWhile_gap {n cs : List Char} {c g : Char} (hn : IsName n) (hg : isNameChar g = false) :
    (n ++ c :: cs).takeWhile (· ≠ g) =
      if c = g then n else n ++ c :: cs.takeWhile (· ≠ g) := by
  have hall : ∀ d ∈ n, decide (d ≠ g) = true := by
    rintro d hd
    simpa using fun h : d = g => hn.not_mem hg (h ▸ hd)
  rw [List.takeWhile_append_of_pos hall, List.takeWhile_cons]
  by_cases hc : c = g <;> simp [hc]

theorem takeWhile_name {n : List Char} {g : Char} (hn : IsName n) (hg : isNameChar g = false) :
    n.takeWhile (· ≠ g) = n := by
  apply List.takeWhile_eq_self_iff.mpr
  intro d hd
  simpa using fun h : d = g => hn.not_mem hg (h ▸ hd)

theorem namesOf_takeWhile {n cs : List Char} {g : Char} (hg : isNameChar g = false)
    (h : n ∈ namesOf (cs.takeWhile (· ≠ g))) : n ∈ namesOf cs := by
  induction cs using names_induction with
  | name m hm => rwa [takeWhile_name hm hg] at h
  | gap m c cs hm hc ih =>
    rw [takeWhile_gap hm hg] at h
    split at h
    · rw [namesOf_gap m cs hc]
      exact List.mem_append_left _ h
    · rw [namesOf_gap _ _ hc] at h ⊢
      rcases List.mem_append.mp h with h | h
      · exact List.mem_append_left _ h
      · exact List.mem_append_right _ (ih h)

theorem PutsNames.takeWhile {b : Bindings} {g : Char} (hb : PutsNames b)
    (hg : isNameChar g = false) (cs : List Char) :
    (replaceNames b cs).takeWhile (· ≠ g) = replaceNames b (cs.takeWhile (· ≠ g)) := by
  induction cs using names_induction with
  | name n hn =>
    rw [takeWhile_name hn hg, replaceNames_name hn, takeWhile_name (hb.isName_replaceName hn) hg]
  | gap n c cs hn hc ih =>
    rw [replaceNames_gap b n cs hc, replaceNames_name hn,
      takeWhile_gap (hb.isName_replaceName hn) hg, takeWhile_gap hn hg]
    split
    · rw [replaceNames_name hn]
    · rw [replaceNames_gap b n _ hc, replaceNames_name hn, ih]

/-- A separator of the segments of a path. -/
def IsSeparator (sep : List Char) : Prop :=
  sep = [':', ':'] ∨ sep = ['.']

theorem IsSeparator.isName {sep : List Char} (h : IsSeparator sep) : IsName sep := by
  rcases h with rfl | rfl <;> decide

theorem IsSeparator.ne_nil {sep : List Char} (h : IsSeparator sep) : sep ≠ [] := by
  rcases h with rfl | rfl <;> simp

theorem IsSeparator.isPathSuffix {sep : List Char} {n : String} (h : IsSeparator sep)
    (hx : x ≠ "") (hn : sep ++ x.toList <:+ n.toList) : isPathSuffix n x = true := by
  obtain ⟨u, hu⟩ := hn
  rw [← List.append_assoc] at hu
  rw [isPathSuffix_iff hx]
  rcases h with rfl | rfl
  · exact .inr ⟨u, .inl hu.symm⟩
  · exact .inr ⟨u, .inr hu.symm⟩

theorem IsIdentifier.no_separator {sep v : List Char} (hx : IsIdentifier x)
    (hsep : IsSeparator sep) : ¬ sep ++ v <:+ x.toList := by
  intro h
  have hmem : ∀ c ∈ sep, c ∈ x.toList := fun c hc => h.subset (List.mem_append_left _ hc)
  rcases hsep with rfl | rfl
  · exact hx.2.2.2 (hmem ':' (by simp))
  · exact hx.2.2.1 (hmem '.' (by simp))

theorem afterLast?_identifier {sep : List Char} (hx : IsIdentifier x) (hsep : IsSeparator sep) :
    Chars.afterLast? sep x.toList = none := by
  cases h : Chars.afterLast? sep x.toList with
  | none => rfl
  | some v => exact absurd (Chars.suffix_of_afterLast? h) (hx.no_separator hsep)

theorem afterLast?_gap {sep n : List Char} {c : Char} (hsep : IsSeparator sep)
    (hc : isNameChar c = false) (cs : List Char) :
    Chars.afterLast? sep (n ++ c :: cs) =
      (Chars.afterLast? sep cs).or ((Chars.afterLast? sep n).map (· ++ c :: cs)) :=
  Chars.afterLast?_append_cons hsep.ne_nil (hsep.isName.not_mem hc) n cs

/-- What follows the last separator mentions ends of names. -/
theorem namesOf_afterLast? {sep cs v m : List Char} (hsep : IsSeparator sep)
    (h : Chars.afterLast? sep cs = some v) (hm : m ∈ namesOf v) : ∃ n ∈ namesOf cs, m <:+ n := by
  have hend {n v : List Char} (hn : IsName n) (h : Chars.afterLast? sep n = some v) :
      v <:+ n ∧ IsName v := by
    have hv := (List.suffix_append sep v).trans (Chars.suffix_of_afterLast? h)
    exact ⟨hv, fun c hc => hn c (hv.subset hc)⟩
  induction cs using names_induction generalizing v with
  | name n hn =>
    obtain ⟨hv, hvname⟩ := hend hn h
    rw [namesOf_name hvname, List.mem_singleton] at hm
    exact ⟨n, by simp [namesOf_name hn], hm ▸ hv⟩
  | gap n c cs hn hc ih =>
    rw [afterLast?_gap hsep hc] at h
    rw [namesOf_gap n cs hc]
    rcases Option.or_eq_some_iff.mp h with h | ⟨_, h⟩
    · obtain ⟨k, hk, hmk⟩ := ih h hm
      exact ⟨k, List.mem_append_right _ hk, hmk⟩
    · obtain ⟨v', hv', rfl⟩ := Option.map_eq_some_iff.mp h
      obtain ⟨hend, hname⟩ := hend hn hv'
      rw [namesOf_gap v' cs hc, namesOf_name hname] at hm
      rcases List.mem_append.mp hm with hm | hm
      · exact ⟨n, by simp [namesOf_name hn], List.mem_singleton.mp hm ▸ hend⟩
      · exact ⟨m, List.mem_append_right _ hm, List.suffix_rfl⟩

theorem namesOf_afterLast {sep cs m : List Char} (hsep : IsSeparator sep)
    (hm : m ∈ namesOf (Chars.afterLast sep cs)) : ∃ n ∈ namesOf cs, m <:+ n := by
  cases h : Chars.afterLast? sep cs with
  | none =>
    rw [Chars.afterLast, h] at hm
    exact ⟨m, hm, List.suffix_rfl⟩
  | some v =>
    rw [Chars.afterLast, h] at hm
    exact namesOf_afterLast? hsep h hm

/-- Where the identifier ends no path, the text after the last separator can be taken before or
after renaming it. -/
theorem afterLast_rename {sep cs : List Char} (hx : IsIdentifier x) (hy : IsIdentifier y)
    (hsep : IsSeparator sep) (h : ∀ n ∈ namesOf cs, ¬ sep ++ x.toList <:+ n) :
    Chars.afterLast sep (replaceNames [(x, y)] cs) =
      replaceNames [(x, y)] (Chars.afterLast sep cs) := by
  -- A name that has a separator stays, and so does what follows the separator in it.
  have hname {n : List Char} (hn : IsName n) (hne : ¬ sep ++ x.toList <:+ n) :
      Chars.afterLast? sep (replaceNames [(x, y)] n) = Chars.afterLast? sep n ∧
        ∀ v, Chars.afterLast? sep n = some v → replaceNames [(x, y)] v = v := by
    rw [rename_name hx.1 hn]
    split
    · next heq =>
      rw [heq, afterLast?_identifier hy hsep, afterLast?_identifier hx hsep]
      exact ⟨rfl, by simp⟩
    · refine ⟨rfl, fun v hv => ?_⟩
      have hsuffix := Chars.suffix_of_afterLast? hv
      have hvname : IsName v :=
        fun c hc => hn c (hsuffix.subset (List.mem_append_right _ hc))
      have hvne : v ≠ x.toList := fun heq => hne (heq ▸ hsuffix)
      rw [rename_name hx.1 hvname, if_neg hvne]
  suffices hall : Chars.afterLast? sep (replaceNames [(x, y)] cs) =
      (Chars.afterLast? sep cs).map (replaceNames [(x, y)]) by
    rw [Chars.afterLast, hall, Chars.afterLast]
    cases Chars.afterLast? sep cs <;> rfl
  induction cs using names_induction with
  | name n hn =>
    obtain ⟨heq, hstays⟩ := hname hn (h n (by simp [namesOf_name hn]))
    rw [heq]
    cases hv : Chars.afterLast? sep n with
    | none => rfl
    | some v => rw [Option.map_some, hstays v hv]
  | gap n c cs hn hc ih =>
    rw [namesOf_gap n cs hc, namesOf_name hn, List.singleton_append, List.forall_mem_cons] at h
    obtain ⟨heq, hstays⟩ := hname hn h.1
    rw [replaceNames_gap _ n cs hc, afterLast?_gap hsep hc, afterLast?_gap hsep hc, ih h.2, heq]
    cases Chars.afterLast? sep cs with
    | some v => rfl
    | none =>
      cases hv : Chars.afterLast? sep n with
      | none => rfl
      | some v => simp [replaceNames_gap _ v cs hc, hstays v hv]

theorem Alone.no_separator {sep n : List Char} (hx : IsIdentifier x) (h : Alone x text)
    (hsep : IsSeparator sep) (hn : n ∈ namesOf text.toList) : ¬ sep ++ x.toList <:+ n := by
  intro hsuffix
  have hmem : String.ofList n ∈ names text := mem_names.mpr (by simpa using hn)
  have heq := h _ hmem (hsep.isPathSuffix hx.1 (by simpa using hsuffix))
  have hname : n = x.toList := by rw [← heq, String.toList_ofList]
  exact hx.no_separator hsep (hname ▸ hsuffix)

/-- The last segment of a path that is renamed is its last segment, renamed. -/
theorem shortName_rename (hx : IsIdentifier x) (hy : IsIdentifier y) (h : Alone x text) :
    shortName (rename x y text) = rename x y (shortName text) := by
  have hb := putsNames_rename x hy
  have hcolons : IsSeparator [':', ':'] := .inl rfl
  have hdot : IsSeparator ['.'] := .inr rfl
  have hpath : ∀ n ∈ namesOf ((Chars.trim text.toList).takeWhile (· ≠ '<')),
      n ∈ namesOf text.toList :=
    fun n hn => namesOf_trim (namesOf_takeWhile isNameChar_lt hn)
  have hends : ∀ n ∈ namesOf ((Chars.trim text.toList).takeWhile (· ≠ '<')),
      ¬ [':', ':'] ++ x.toList <:+ n :=
    fun n hn => h.no_separator hx hcolons (hpath n hn)
  have hlast : ∀ n ∈ namesOf
      (Chars.afterLast [':', ':'] ((Chars.trim text.toList).takeWhile (· ≠ '<'))),
      ¬ ['.'] ++ x.toList <:+ n := by
    intro n hn hsuffix
    obtain ⟨k, hk, hnk⟩ := namesOf_afterLast hcolons hn
    exact h.no_separator hx hdot (hpath k hk) (hsuffix.trans hnk)
  apply String.toList_injective
  rw [toList_rename, shortName, shortName, String.toList_ofList, String.toList_ofList,
    toList_rename, hb.trim, hb.takeWhile isNameChar_lt, afterLast_rename hx hy hcolons hends,
    afterLast_rename hx hy hdot hlast]

theorem mem_of_mem_shortName {c : Char} (h : c ∈ (shortName text).toList) : c ∈ text.toList := by
  have hlast {sep cs : List Char} (h : c ∈ Chars.afterLast sep cs) : c ∈ cs := by
    unfold Chars.afterLast at h
    cases hv : Chars.afterLast? sep cs with
    | none => rwa [hv] at h
    | some v =>
      rw [hv] at h
      exact (Chars.suffix_of_afterLast? hv).subset (List.mem_append_right _ h)
  rw [shortName, String.toList_ofList] at h
  exact Chars.mem_of_mem_trim ((List.takeWhile_prefix _).subset (hlast (hlast h)))

/-- A text that a name stands in front of has that name at the end of one of its names. -/
theorem exists_name_append {m : List Char} (hm : IsName m) (l : List Char) :
    ∃ k, k ++ m ∈ namesOf (l ++ m) := by
  induction l using names_induction with
  | name k hk =>
    have hname : IsName (k ++ m) := fun c hc => (List.mem_append.mp hc).elim (hk c) (hm c)
    exact ⟨k, by simp [namesOf_name hname]⟩
  | gap n c cs _ hc ih =>
    obtain ⟨k, hk⟩ := ih
    refine ⟨k, ?_⟩
    rw [List.append_assoc, List.cons_append, namesOf_gap _ _ hc]
    exact List.mem_append_right _ hk

theorem namesOf_append_separator {sep m n : List Char} (hsep : IsSeparator sep) (u : List Char)
    (h : n ∈ namesOf m) : ∃ k ∈ namesOf (u ++ sep ++ m), k = n ∨ sep ++ n <:+ k := by
  have hfirst {m : List Char} (hm : IsName m) :
      ∃ k ∈ namesOf (u ++ sep ++ m), sep ++ m <:+ k := by
    have hname : IsName (sep ++ m) :=
      fun c hc => (List.mem_append.mp hc).elim (hsep.isName c) (hm c)
    obtain ⟨k, hk⟩ := exists_name_append hname u
    exact ⟨_, by rwa [List.append_assoc], List.suffix_append k _⟩
  induction m using names_induction with
  | name m hm =>
    rw [namesOf_name hm, List.mem_singleton] at h
    subst h
    obtain ⟨k, hk, hnk⟩ := hfirst hm
    exact ⟨k, hk, .inr hnk⟩
  | gap m c cs hm hc _ =>
    have hwhole : namesOf (u ++ sep ++ (m ++ c :: cs)) = namesOf (u ++ sep ++ m) ++ namesOf cs := by
      rw [← List.append_assoc, namesOf_gap _ _ hc]
    rw [namesOf_gap m cs hc, namesOf_name hm] at h
    rw [hwhole]
    rcases List.mem_append.mp h with h | h
    · obtain ⟨k, hk, hmk⟩ := hfirst hm
      rw [List.mem_singleton.mp h]
      exact ⟨k, List.mem_append_left _ hk, .inr hmk⟩
    · exact ⟨n, List.mem_append_right _ h, .inl rfl⟩

/-- A path that ends in a text has an ending in each name of it. -/
theorem hasEnding_of_isPathSuffix {e : String} (hx : x ≠ "") (ht : text ≠ "")
    (h : isPathSuffix e text = true) (hmem : x ∈ names text) : HasEnding e x := by
  have hunder {sep u : List Char} (hsep : IsSeparator sep)
      (he : e.toList = u ++ sep ++ text.toList) : HasEnding e x := by
    obtain ⟨k, hk, hkx⟩ := namesOf_append_separator hsep u (mem_names.mp hmem)
    rw [← he] at hk
    refine ⟨String.ofList k, mem_names.mpr (by simpa using hk), ?_⟩
    rcases hkx with rfl | hkx
    · rw [String.ofList_toList]
      exact isPathSuffix_self hx
    · exact hsep.isPathSuffix hx (by simpa using hkx)
  rcases (isPathSuffix_iff ht).mp h with rfl | ⟨u, hu | hu⟩
  · exact hasEnding_of_mem_names hx hmem
  · exact hunder (.inl rfl) hu
  · exact hunder (.inr rfl) hu

end EndpointDocs.TypeText

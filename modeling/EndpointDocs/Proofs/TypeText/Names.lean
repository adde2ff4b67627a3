import EndpointDocs.Proofs.Chars.Words
import EndpointDocs.Proofs.OrderedMap
import EndpointDocs.TypeText

namespace EndpointDocs.TypeText

/-- A name, read as characters; it may be empty. -/
def IsName (n : List Char) : Prop :=
  ∀ c ∈ n, isNameChar c = true

instance (n : List Char) : Decidable (IsName n) :=
  List.decidableBAll (isNameChar · = true) n

/-- The names of a text, empty ones included. -/
def namesOf (cs : List Char) : List (List Char) :=
  cs.splitOnP fun c => !isNameChar c

def names (text : String) : List String :=
  (namesOf text.toList).map String.ofList

variable {b : Bindings} {n w cs : List Char} {c g : Char}

theorem IsName.not_mem (h : IsName n) (hg : isNameChar g = false) : g ∉ n := by
  intro hmem
  rw [h g hmem] at hg
  cases hg

/-- A text is a name, or a name in front of a character between names and a further text. -/
theorem names_induction {P : List Char → Prop} (name : ∀ n, IsName n → P n)
    (gap : ∀ n c cs, IsName n → isNameChar c = false → P cs → P (n ++ c :: cs))
    (cs : List Char) : P cs :=
  Chars.cut_induction name gap cs

theorem namesOf_name (h : IsName n) : namesOf n = [n] :=
  List.splitOnP_eq_singleton fun c hc => by simp [h c hc]

theorem namesOf_gap (a cs : List Char) (hc : isNameChar c = false) :
    namesOf (a ++ c :: cs) = namesOf a ++ namesOf cs :=
  List.splitOnP_append_cons a cs (by simp [hc])

theorem isName_of_mem_namesOf {n cs : List Char} (h : n ∈ namesOf cs) : IsName n := fun c hc => by
  simpa using Chars.not_separates_of_mem_splitOnP h c hc

/-- White space stands between names. -/
theorem isNameChar_of_isBlank {c : Char} (h : Chars.isBlank c = true) : isNameChar c = false := by
  have hsigns : c ≠ '_' ∧ c ≠ '.' ∧ c ≠ ':' ∧ c ≠ '$' := by
    refine ⟨?_, ?_, ?_, ?_⟩ <;> rintro rfl <;> revert h <;> decide
  simp [isNameChar, Chars.isAlphanumeric, h, hsigns]

theorem isNameChar_lt : isNameChar '<' = false := by decide
theorem isNameChar_gt : isNameChar '>' = false := by decide
theorem isNameChar_comma : isNameChar ',' = false := by decide
theorem isNameChar_open : isNameChar '[' = false := by decide
theorem isNameChar_close : isNameChar ']' = false := by decide

theorem substituteChars_gap (b : Bindings) (seen a cs : List Char) (hc : isNameChar c = false) :
    substituteChars b seen (a ++ c :: cs) =
      substituteChars b seen a ++ c :: substituteChars b [] cs := by
  induction a generalizing seen with
  | nil => simp [substituteChars, hc]
  | cons x a ih =>
    rw [List.cons_append, substituteChars, substituteChars]
    split
    · exact ih _
    · rw [ih, List.append_assoc, List.cons_append]

theorem substituteChars_name (h : IsName n) (seen : List Char) :
    substituteChars b seen n = replaceName b (seen.reverse ++ n) := by
  induction n generalizing seen with
  | nil => simp [substituteChars]
  | cons c n ih =>
    obtain ⟨hc, hn⟩ := List.forall_mem_cons.mp h
    rw [substituteChars, if_pos hc, ih hn]
    simp

/-- A text with its names replaced, as characters. -/
def replaceNames (b : Bindings) (cs : List Char) : List Char :=
  substituteChars b [] cs

theorem toList_substitute (b : Bindings) (text : String) :
    (substitute b text).toList = replaceNames b text.toList := by
  simp [substitute, replaceNames]

theorem replaceNames_gap (b : Bindings) (a cs : List Char) (hc : isNameChar c = false) :
    replaceNames b (a ++ c :: cs) = replaceNames b a ++ c :: replaceNames b cs :=
  substituteChars_gap b [] a cs hc

theorem replaceNames_name (h : IsName n) : replaceNames b n = replaceName b n :=
  substituteChars_name h []

theorem substitute_nil (text : String) : substitute [] text = text := by
  have hname (n : List Char) : replaceName [] n = n := by
    cases n <;> rfl
  apply String.toList_injective
  rw [toList_substitute]
  induction text.toList using names_induction with
  | name n hn => rw [replaceNames_name hn, hname]
  | gap n c cs hn hc ih => rw [replaceNames_gap [] n cs hc, replaceNames_name hn, hname, ih]

theorem replaceNames_nil (b : Bindings) : replaceNames b [] = [] :=
  rfl

theorem replaceName_of_ne_nil (h : n ≠ []) :
    replaceName b n = ((b.get? (String.ofList n)).map String.toList).getD n := by
  cases n with
  | nil => exact absurd rfl h
  | cons c n => rfl

/-- A name stays as it is or becomes the value that is bound to it. -/
theorem replaceName_cases (b : Bindings) (n : List Char) :
    replaceName b n = n ∨ ∃ v, (String.ofList n, v) ∈ b ∧ replaceName b n = v.toList := by
  by_cases hn : n = []
  · subst hn
    exact .inl rfl
  · rw [replaceName_of_ne_nil hn]
    cases hv : b.get? (String.ofList n) with
    | none => exact .inl rfl
    | some v => exact .inr ⟨v, OrderedMap.mem_of_get? hv, rfl⟩

/-- No name of the text is bound. -/
def Unbound (b : Bindings) (cs : List Char) : Prop :=
  ∀ k ∈ b.keys, k.toList ≠ [] → k.toList ∉ namesOf cs

theorem replaceName_of_not_mem {n : List Char} (h : String.ofList n ∉ b.keys) :
    replaceName b n = n := by
  rcases replaceName_cases b n with heq | ⟨v, hv, _⟩
  · exact heq
  · exact absurd (List.mem_map_of_mem hv) h

theorem replaceNames_of_unbound (h : Unbound b cs) : replaceNames b cs = cs := by
  have hname {n : List Char} (hn : IsName n) (hb : Unbound b n) : replaceNames b n = n := by
    rw [replaceNames_name hn]
    by_cases hnil : n = []
    · subst hnil
      rfl
    · refine replaceName_of_not_mem fun hkey => hb _ hkey ?_ ?_
      · rwa [String.toList_ofList]
      · rw [String.toList_ofList, namesOf_name hn]
        exact List.mem_singleton_self n
  induction cs using names_induction with
  | name n hn => exact hname hn h
  | gap n c cs hn hc ih =>
    have hfirst : Unbound b n := by
      intro k hk hne hmem
      refine h k hk hne ?_
      rw [namesOf_gap n cs hc]
      exact List.mem_append_left _ hmem
    have hrest : Unbound b cs := by
      intro k hk hne hmem
      refine h k hk hne ?_
      rw [namesOf_gap n cs hc]
      exact List.mem_append_right _ hmem
    rw [replaceNames_gap b n cs hc, hname hn hfirst, ih hrest]

/-- Replacing brings in the names of the values and no others. -/
theorem mem_namesOf_replaceNames (h : n ∈ namesOf (replaceNames b cs)) :
    n ∈ namesOf cs ∨ ∃ k v, (k, v) ∈ b ∧ n ∈ namesOf v.toList := by
  induction cs using names_induction with
  | name m hm =>
    rw [replaceNames_name hm] at h
    rcases replaceName_cases b m with heq | ⟨v, hv, heq⟩
    · exact .inl (heq ▸ h)
    · exact .inr ⟨_, v, hv, heq ▸ h⟩
  | gap m c cs hm hc ih =>
    rw [replaceNames_gap b m cs hc, replaceNames_name hm, namesOf_gap _ _ hc] at h
    rw [namesOf_gap m cs hc]
    rcases List.mem_append.mp h with h | h
    · rcases replaceName_cases b m with heq | ⟨v, hv, heq⟩
      · exact .inl (List.mem_append_left _ (heq ▸ h))
      · exact .inr ⟨_, v, hv, heq ▸ h⟩
    · exact (ih h).imp_left (List.mem_append_right _)

theorem pieces_ne_nil (depth : Nat) (cs : List Char) : pieces depth cs ≠ [] := by
  cases cs with
  | nil => simp [pieces]
  | cons c cs =>
    rw [pieces]
    split
    · simp
    · split <;> simp

theorem pieces_cons (depth : Nat) (c : Char) (cs : List Char) :
    pieces depth (c :: cs) =
      if c = ',' ∧ depth = 0 then [] :: pieces depth cs
      else (pieces (depthAfter depth c) cs).modifyHead (c :: ·) := by
  rw [pieces]
  split
  · rfl
  · cases h : pieces (depthAfter depth c) cs with
    | nil => exact absurd h (pieces_ne_nil _ _)
    | cons p ps => rfl

/-- A name belongs to the first piece as a whole. -/
theorem pieces_name (hn : IsName n) (depth : Nat) (cs : List Char) :
    pieces depth (n ++ cs) = (pieces depth cs).modifyHead (n ++ ·) := by
  induction n with
  | nil => cases h : pieces depth cs <;> simp [h]
  | cons c n ih =>
    obtain ⟨hc, hn⟩ := List.forall_mem_cons.mp hn
    have hsign {g : Char} (hg : isNameChar g = false) : c ≠ g := by
      rintro rfl
      rw [hc] at hg
      cases hg
    have hdepth : depthAfter depth c = depth := by
      simp [depthAfter, hsign isNameChar_lt, hsign isNameChar_gt]
    rw [List.cons_append, pieces_cons, if_neg (by simp [hsign isNameChar_comma]), hdepth, ih hn]
    simp [List.modifyHead_modifyHead, Function.comp_def]

theorem pieces_of_name (hn : IsName n) (depth : Nat) : pieces depth n = [n] := by
  simpa [pieces] using pieces_name hn depth []

theorem namesOf_pieces {depth : Nat} {q : List Char} (hq : q ∈ pieces depth cs)
    (h : n ∈ namesOf q) : n ∈ namesOf cs := by
  induction cs using names_induction generalizing depth q with
  | name m hm =>
    rw [pieces_of_name hm, List.mem_singleton] at hq
    exact hq ▸ h
  | gap m c cs hm hc ih =>
    rw [pieces_name hm, pieces_cons] at hq
    rw [namesOf_gap m cs hc]
    split at hq
    · rcases List.mem_cons.mp hq with rfl | hq
      · exact List.mem_append_left _ (by simpa using h)
      · exact List.mem_append_right _ (ih hq h)
    · obtain ⟨p, ps, hps⟩ := List.exists_cons_of_ne_nil (pieces_ne_nil (depthAfter depth c) cs)
      rw [hps] at hq
      rcases List.mem_cons.mp hq with rfl | hq
      · rw [namesOf_gap m p hc] at h
        rcases List.mem_append.mp h with h | h
        · exact List.mem_append_left _ h
        · exact List.mem_append_right _ (ih (hps ▸ List.mem_cons_self) h)
      · exact List.mem_append_right _ (ih (hps ▸ List.mem_cons_of_mem _ hq) h)

theorem namesOf_append_right (hw : ∀ c ∈ w, isNameChar c = false) (h : n ∈ namesOf cs) :
    n ∈ namesOf (cs ++ w) := by
  cases w with
  | nil => simpa using h
  | cons c w =>
    rw [namesOf_gap cs w (hw c List.mem_cons_self)]
    exact List.mem_append_left _ h

theorem namesOf_append_left (hw : ∀ c ∈ w, isNameChar c = false) (h : n ∈ namesOf cs) :
    n ∈ namesOf (w ++ cs) := by
  induction w with
  | nil => exact h
  | cons c w ih =>
    obtain ⟨hc, hw⟩ := List.forall_mem_cons.mp hw
    have hgap := namesOf_gap [] (w ++ cs) hc
    rw [List.nil_append] at hgap
    rw [List.cons_append, hgap]
    exact List.mem_append_right _ (ih hw)

theorem namesOf_trim (h : n ∈ namesOf (Chars.trim cs)) : n ∈ namesOf cs := by
  obtain ⟨v, w, hv, hw, heq, _⟩ := Chars.exists_trim cs
  rw [heq]
  apply namesOf_append_right fun c hc => isNameChar_of_isBlank (hw c hc)
  exact namesOf_append_left (fun c hc => isNameChar_of_isBlank (hv c hc)) h

theorem namesOf_splitChars (cs : List Char) :
    (∀ n ∈ namesOf (splitChars cs).1, n ∈ namesOf cs) ∧
      ((splitChars cs).2 ≠ [] → ∀ n ∈ namesOf (splitChars cs).2, n ∈ namesOf cs) := by
  unfold splitChars splitTrimmed
  cases hcut : Chars.cutAtFirst '<' (Chars.trim cs) with
  | none => exact ⟨fun n h => namesOf_trim h, fun h => absurd rfl h⟩
  | some parts =>
    obtain ⟨head, tail⟩ := parts
    cases hlast : Chars.beforeLast '>' tail with
    | none => simpa [hlast] using fun n h => namesOf_trim h
    | some inner =>
      simp only [hlast]
      have hwhole : namesOf (Chars.trim cs) = namesOf head ++ namesOf tail := by
        rw [(Chars.cutAtFirst_eq_some hcut).1, namesOf_gap _ _ isNameChar_lt]
      obtain ⟨rest, rfl, _⟩ := Chars.beforeLast_eq_some hlast
      rw [namesOf_gap _ _ isNameChar_gt] at hwhole
      refine ⟨fun n h => namesOf_trim ?_, fun _ n h => namesOf_trim ?_⟩
      · rw [hwhole]
        exact List.mem_append_left _ (namesOf_trim h)
      · rw [hwhole]
        exact List.mem_append_right _ (List.mem_append_left _ (namesOf_trim h))

theorem argumentText?_eq (text : String) :
    argumentText? text =
      if (splitChars text.toList).2 = [] then none
      else some (String.ofList (splitChars text.toList).2) := by
  rw [argumentText?]
  cases (splitChars text.toList).2 with
  | nil => rfl
  | cons c cs => rfl

theorem mem_names {x text : String} : x ∈ names text ↔ x.toList ∈ namesOf text.toList := by
  rw [names, List.mem_map]
  constructor
  · rintro ⟨n, hn, rfl⟩
    simpa using hn
  · exact fun h => ⟨_, h, by simp⟩

variable {x text : String}

theorem names_rawName (h : x ∈ names (rawName text)) : x ∈ names text := by
  rw [mem_names] at h ⊢
  exact (namesOf_splitChars _).1 _ (by simpa [rawName] using h)

theorem names_arguments {argument : String} (ha : argument ∈ arguments text)
    (h : x ∈ names argument) : x ∈ names text := by
  rw [mem_names] at h ⊢
  unfold arguments argumentText? at ha
  split at ha
  · cases ha
  · next list hlist =>
    split at hlist
    · cases hlist
    · next hne =>
      cases hlist
      simp only [argumentsOf, List.mem_map, List.mem_filter, String.toList_ofList] at ha
      obtain ⟨_, ⟨⟨q, hq, rfl⟩, _⟩, rfl⟩ := ha
      rw [String.toList_ofList] at h
      exact (namesOf_splitChars _).2 hne _ (namesOf_pieces hq (namesOf_trim h))

theorem names_component? {items : String} (hc : component? text = some items)
    (h : x ∈ names items) : x ∈ names text := by
  rw [mem_names] at h ⊢
  unfold component? at hc
  split at hc
  · cases hc
  · next cs hcs =>
    split at hc
    · cases hc
    · cases hc
      rw [String.toList_ofList] at h
      have hwhole := Chars.eq_append_of_isSuffixOf? hcs
      apply namesOf_trim
      rw [hwhole, namesOf_gap _ _ isNameChar_open]
      exact List.mem_append_left _ (namesOf_trim h)

theorem names_substitute (h : x ∈ names (substitute b text)) :
    x ∈ names text ∨ ∃ k v, (k, v) ∈ b ∧ x ∈ names v := by
  rw [mem_names, toList_substitute] at h
  rcases mem_namesOf_replaceNames h with h | ⟨k, v, hv, h⟩
  · exact .inl (mem_names.mpr h)
  · exact .inr ⟨k, v, hv, mem_names.mpr h⟩

end EndpointDocs.TypeText

import EndpointDocs.Proofs.TypeText.Names

namespace EndpointDocs.TypeText

open Chars

variable {level : Nat} {cs ds : List Char} {c : Char}

/-- Where as many brackets stand open as `level`, or more, the text adds to one piece. -/
def Closed (level : Nat) (cs : List Char) : Prop :=
  ∀ depth, level ≤ depth → ∀ rest,
    pieces depth (cs ++ rest) = (pieces depth rest).modifyHead (cs ++ ·)

theorem Closed.mono {higher : Nat} (h : Closed level cs) (hle : level ≤ higher) :
    Closed higher cs :=
  fun depth hdepth => h depth (hle.trans hdepth)

theorem closed_nil (level : Nat) : Closed level [] := by
  intro depth _ rest
  cases h : pieces depth rest <;> simp [h]

theorem Closed.append (hc : Closed level cs) (hd : Closed level ds) : Closed level (cs ++ ds) := by
  intro depth hdepth rest
  rw [List.append_assoc, hc depth hdepth, hd depth hdepth, List.modifyHead_modifyHead]
  simp only [Function.comp_def, List.append_assoc]

/-- A character that is neither a comma nor an angle bracket. -/
def IsPlain (c : Char) : Prop :=
  c ≠ ',' ∧ c ≠ '<' ∧ c ≠ '>'

instance : DecidablePred IsPlain :=
  fun c => inferInstanceAs (Decidable (c ≠ ',' ∧ c ≠ '<' ∧ c ≠ '>'))

theorem closed_of_plain (h : ∀ c ∈ cs, IsPlain c) : Closed level cs := by
  induction cs with
  | nil => exact closed_nil level
  | cons c cs ih =>
    obtain ⟨⟨hcomma, hopen, hclose⟩, hcs⟩ := List.forall_mem_cons.mp h
    have hfirst : Closed level [c] := by
      intro depth _ rest
      have hsame : depthAfter depth c = depth := by simp [depthAfter, hopen, hclose]
      rw [List.singleton_append, pieces_cons, if_neg (by simp [hcomma]), hsame]
      rfl
    exact hfirst.append (ih hcs)

theorem closed_comma : Closed 1 [','] := by
  intro depth hdepth rest
  rw [List.singleton_append, pieces_cons, if_neg (by omega)]
  rfl

theorem Closed.enclosed (h : Closed (level + 1) cs) : Closed level ('<' :: cs ++ ['>']) := by
  intro depth hdepth rest
  have hopen : depthAfter depth '<' = depth + 1 := rfl
  have hclose : depthAfter (depth + 1) '>' = depth := rfl
  rw [List.append_assoc, List.singleton_append, List.cons_append, pieces_cons,
    if_neg (by simp), hopen, h _ (Nat.succ_le_succ hdepth), pieces_cons,
    if_neg (by simp), hclose]
  simp [List.modifyHead_modifyHead, Function.comp_def]

theorem closed_intercalate {w : List Char} {ts : List (List Char)} (hw : ∀ c ∈ w, IsPlain c)
    (h : ∀ t ∈ ts, Closed 1 t) : Closed 1 (List.intercalate (',' :: w) ts) := by
  have hsep : Closed 1 (',' :: w) := closed_comma.append (closed_of_plain hw)
  induction ts with
  | nil => exact closed_nil 1
  | cons t ts ih =>
    cases ts with
    | nil => simpa using h t
    | cons u ts =>
      rw [List.intercalate_cons_cons]
      exact ((h t List.mem_cons_self).append hsep).append
        (ih fun u hu => h u (List.mem_cons_of_mem _ hu))

theorem isPlain_of_isBlank (h : isBlank c = true) : IsPlain c := by
  refine ⟨?_, ?_, ?_⟩ <;> rintro rfl <;> cases h

theorem trim_pieces_modifyHead {w : List Char} (hw : ∀ c ∈ w, isBlank c = true)
    (ps : List (List Char)) : (ps.modifyHead (w ++ ·)).map trim = ps.map trim := by
  cases ps with
  | nil => rfl
  | cons p ps => simp [trim, trimStart_append hw]

/-- Blanks behind a text are behind its last piece. -/
theorem exists_pieces_append {w : List Char} (hw : ∀ c ∈ w, isBlank c = true) (depth : Nat)
    (cs : List Char) :
    ∃ ps p, pieces depth cs = ps ++ [p] ∧ pieces depth (cs ++ w) = ps ++ [p ++ w] := by
  induction cs generalizing depth with
  | nil =>
    have hone : pieces depth (w ++ []) = [w ++ []] :=
      closed_of_plain (fun c hc => isPlain_of_isBlank (hw c hc)) depth (Nat.zero_le _) []
    rw [List.append_nil] at hone
    exact ⟨[], [], rfl, hone⟩
  | cons c cs ih =>
    rw [List.cons_append, pieces_cons, pieces_cons]
    split
    · obtain ⟨ps, p, hcs, happend⟩ := ih depth
      exact ⟨[] :: ps, p, by rw [hcs, List.cons_append], by rw [happend, List.cons_append]⟩
    · obtain ⟨ps, p, hcs, happend⟩ := ih (depthAfter depth c)
      rw [hcs, happend]
      cases ps with
      | nil => exact ⟨[], c :: p, rfl, rfl⟩
      | cons q ps => exact ⟨(c :: q) :: ps, p, rfl, rfl⟩

theorem trim_pieces_trim (cs : List Char) :
    (pieces 0 (trim cs)).map trim = (pieces 0 cs).map trim := by
  obtain ⟨v, w, hv, hw, hcs, _⟩ := exists_trim cs
  obtain ⟨ps, p, htrimmed, hwhole⟩ := exists_pieces_append hw 0 (trim cs)
  have hstart : pieces 0 (v ++ (trim cs ++ w)) =
      (pieces 0 (trim cs ++ w)).modifyHead (v ++ ·) :=
    closed_of_plain (fun c hc => isPlain_of_isBlank (hv c hc)) 0 (Nat.le_refl 0) _
  have hend : trim (p ++ w) = trim p := trim_append_right hw p
  -- The text itself stands on both sides, so only the right one is written out.
  conv_rhs => rw [hcs, List.append_assoc, hstart, trim_pieces_modifyHead hv, hwhole]
  rw [htrimmed, List.map_append, List.map_append, List.map_singleton, List.map_singleton, hend]

theorem pieces_of_closed (h : Closed 0 cs) : pieces 0 cs = [cs] := by
  have hone : pieces 0 (cs ++ []) = [cs ++ []] := h 0 (Nat.le_refl 0) []
  rwa [List.append_nil] at hone

/-- Closed texts with commas between them are cut at those commas. -/
theorem pieces_intercalate {w t : List Char} {ts : List (List Char)} (hw : ∀ c ∈ w, IsPlain c)
    (ht : Closed 0 t) (hts : ∀ t ∈ ts, Closed 0 t) :
    pieces 0 (List.intercalate (',' :: w) (t :: ts)) = t :: ts.map (w ++ ·) := by
  induction ts generalizing t with
  | nil => rw [List.intercalate_singleton, pieces_of_closed ht, List.map_nil]
  | cons u ts ih =>
    have hcut (cs : List Char) : pieces 0 (',' :: cs) = [] :: pieces 0 cs := by
      rw [pieces_cons, if_pos ⟨rfl, rfl⟩]
    obtain ⟨hu, hts⟩ := List.forall_mem_cons.mp hts
    rw [List.intercalate_cons_cons, List.append_assoc, ht 0 (Nat.le_refl 0), List.cons_append, hcut,
      closed_of_plain hw 0 (Nat.le_refl 0), ih hu hts]
    simp

theorem trim_pieces_intercalate {w : List Char} {ts : List (List Char)}
    (hw : ∀ c ∈ w, isBlank c = true) (hne : ts ≠ []) (h : ∀ t ∈ ts, Closed 0 t ∧ IsTrimmed t) :
    (pieces 0 (List.intercalate (',' :: w) ts)).map trim = ts := by
  obtain ⟨t, ts, rfl⟩ := List.exists_cons_of_ne_nil hne
  obtain ⟨⟨hclosed, htrimmed⟩, hts⟩ := List.forall_mem_cons.mp h
  have htrim : ∀ u ∈ ts, (trim ∘ (w ++ ·)) u = u := fun u hu => by
    have hblank := trim_append hw (List.forall_mem_nil _) (hts u hu).2
    rwa [List.append_nil] at hblank
  rw [pieces_intercalate (fun c hc => isPlain_of_isBlank (hw c hc)) hclosed fun u hu => (hts u hu).1,
    List.map_cons, htrimmed.trim, List.map_map, List.map_congr_left htrim, List.map_id']

/-- A text that can be an argument: it stays in one piece, without blanks around it. -/
structure IsArgument (text : String) : Prop where
  closed : Closed 0 text.toList
  trimmed : IsTrimmed text.toList

/-- A word without commas and brackets; names of types and paths are such words. -/
def IsWord (text : String) : Prop :=
  ∀ c ∈ text.toList, IsPlain c ∧ isBlank c = false

instance : DecidablePred IsWord :=
  fun text => List.decidableBAll (fun c => IsPlain c ∧ isBlank c = false) text.toList

theorem IsWord.isArgument {text : String} (h : IsWord text) : IsArgument text where
  closed := closed_of_plain fun c hc => (h c hc).1
  trimmed := ⟨fun c hc => (h c (List.mem_of_head? hc)).2,
    fun c hc => (h c (List.mem_of_getLast? hc)).2⟩

theorem isWord_of_isName {text : String} (h : IsName text.toList) : IsWord text := by
  intro c hc
  have hsign {g : Char} (hg : isNameChar g = false) : c ≠ g := by
    rintro rfl
    exact h.not_mem hg hc
  refine ⟨⟨hsign isNameChar_comma, hsign isNameChar_lt, hsign isNameChar_gt⟩, ?_⟩
  cases hblank : isBlank c with
  | false => rfl
  | true => exact absurd rfl (hsign (isNameChar_of_isBlank hblank))

theorem isTrimmed_append {d : Char} (hcs : ∀ x, cs.head? = some x → isBlank x = false)
    (hc : isBlank c = false) (hd : isBlank d = false) : IsTrimmed (cs ++ (c :: ds ++ [d])) := by
  constructor
  · intro x hx
    cases cs with
    | nil =>
      cases hx
      exact hc
    | cons y cs => exact hcs x hx
  · intro x hx
    rw [← List.append_assoc, List.getLast?_concat] at hx
    cases hx
    exact hd

theorem toList_brackets (path : String) (ts : List String) :
    (path ++ "<" ++ Text.join ", " ts ++ ">").toList =
      path.toList ++ ('<' :: List.intercalate [',', ' '] (ts.map String.toList) ++ ['>']) := by
  simp [Text.join]

theorem IsWord.isArgument_brackets {path : String} {ts : List String} (hpath : IsWord path)
    (hts : ∀ t ∈ ts, IsArgument t) : IsArgument (path ++ "<" ++ Text.join ", " ts ++ ">") := by
  constructor
  · rw [toList_brackets]
    refine (closed_of_plain fun c hc => (hpath c hc).1).append (Closed.enclosed ?_)
    refine closed_intercalate (by simp [IsPlain]) fun t ht => ?_
    obtain ⟨s, hs, rfl⟩ := List.mem_map.mp ht
    exact (hts s hs).closed.mono (Nat.zero_le 1)
  · rw [toList_brackets]
    exact isTrimmed_append hpath.isArgument.trimmed.1 rfl rfl

theorem arguments_eq (text : String) :
    arguments text = argumentsOf (String.ofList (splitChars text.toList).2) := by
  rw [arguments, argumentText?_eq]
  by_cases hnone : (splitChars text.toList).2 = []
  · rw [if_pos hnone, hnone]
    rfl
  · rw [if_neg hnone]

/-- The arguments of a reference are the closed texts that stand between its brackets, those
without content left out. -/
theorem arguments_of_closed {path : String} {ts : List String} (hpath : IsWord path)
    (hne : ts ≠ []) (hts : ∀ t ∈ ts, IsArgument t) :
    arguments (path ++ "<" ++ Text.join ", " ts ++ ">") = ts.filter (· ≠ "") := by
  have hopen : '<' ∉ path.toList := fun hmem => (hpath _ hmem).1.2.1 rfl
  have hsplit : (splitChars (path ++ "<" ++ Text.join ", " ts ++ ">").toList).2 =
      trim (List.intercalate [',', ' '] (ts.map String.toList)) := by
    rw [splitChars, (hpath.isArgument_brackets hts).trimmed.trim, toList_brackets, List.cons_append,
      splitTrimmed, cutAtFirst_append hopen]
    simp only
    rw [beforeLast_append (by simp)]
  have hpieces : (pieces 0 (List.intercalate [',', ' '] (ts.map String.toList))).map trim =
      ts.map String.toList := by
    have hblank : ∀ c ∈ [' '], isBlank c = true := List.forall_mem_singleton.mpr rfl
    refine trim_pieces_intercalate hblank (by simpa using hne) fun t ht => ?_
    obtain ⟨s, hs, rfl⟩ := List.mem_map.mp ht
    exact ⟨(hts s hs).closed, (hts s hs).trimmed⟩
  have hempty : (fun cs : List Char => !cs.isEmpty) ∘ String.toList = fun t => decide (t ≠ "") := by
    refine funext fun t => Bool.eq_iff_iff.mpr ?_
    simp
  have hback : String.ofList ∘ String.toList = id := funext fun t => String.ofList_toList
  rw [arguments_eq, hsplit, argumentsOf, String.toList_ofList, trim_pieces_trim, hpieces,
    List.filter_map, List.map_map, hempty, hback, List.map_id]

end EndpointDocs.TypeText

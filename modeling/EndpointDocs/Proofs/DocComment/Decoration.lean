import EndpointDocs.Proofs.DocComment.Parsing

namespace EndpointDocs

open Chars

namespace DocComment

variable {l v w : List Char} {ls : List (List Char)}

/-- What the lines of a comment say together. -/
def ofLines (ls : List Line) : DocComment :=
  ⟨String.ofList (trim (List.intercalate ['\n'] (gather ls).1)), (gather ls).2⟩

theorem intercalate_append_nil {parts : List (List Char)} (hne : parts ≠ []) (w : List Char) :
    List.intercalate w (parts ++ [[]]) = List.intercalate w parts ++ w := by
  induction parts with
  | nil => exact absurd rfl hne
  | cons p parts ih =>
    cases parts with
    | nil => simp
    | cons q parts =>
      have hrest := ih (List.cons_ne_nil q parts)
      rw [List.cons_append] at hrest
      rw [List.cons_append, List.cons_append, List.intercalate_cons_cons, hrest,
        List.intercalate_cons_cons]
      simp only [List.append_assoc]

private theorem ofLines_cons_blank (ls : List Line) : ofLines (.running [] :: ls) = ofLines ls := by
  have htrim (parts : List (List Char)) :
      trim (List.intercalate ['\n'] ([] :: parts)) = trim (List.intercalate ['\n'] parts) := by
    cases parts with
    | nil => rfl
    | cons p parts => exact trim_append_left (v := ['\n']) (List.forall_mem_singleton.mpr rfl) _
  rw [ofLines, gather_running, htrim, ofLines]

/-- A blank line at the end adds nothing to the last tag, and to the text a line without content. -/
theorem gather_append_blank (ls : List Line) :
    ((gather (ls ++ [.running []])).1 = (gather ls).1 ∨
      (gather (ls ++ [.running []])).1 = (gather ls).1 ++ [[]]) ∧
    (gather (ls ++ [.running []])).2 = (gather ls).2 := by
  induction ls with
  | nil => exact ⟨.inr rfl, rfl⟩
  | cons l ls ih =>
    obtain ⟨hfront, htags⟩ := ih
    cases l with
    | running line =>
      rw [List.cons_append, gather_running, gather_running]
      refine ⟨?_, htags⟩
      rcases hfront with hfront | hfront
      · exact .inl (congrArg (line :: ·) hfront)
      · exact .inr (congrArg (line :: ·) hfront)
    | opening name value =>
      rw [List.cons_append, gather_opening, gather_opening, htags]
      refine ⟨.inl rfl, ?_⟩
      rcases hfront with hfront | hfront
      · rw [hfront]
      · rw [hfront]
        simp [joined, List.filter_cons]

private theorem ofLines_append_blank (ls : List Line) :
    ofLines (ls ++ [.running []]) = ofLines ls := by
  have htrim (parts : List (List Char)) :
      trim (List.intercalate ['\n'] (parts ++ [[]])) = trim (List.intercalate ['\n'] parts) := by
    cases parts with
    | nil => rfl
    | cons p parts =>
      rw [intercalate_append_nil (List.cons_ne_nil p parts)]
      exact trim_append_right (List.forall_mem_singleton.mpr rfl) _
  obtain ⟨hfront, htags⟩ := gather_append_blank ls
  rw [ofLines, ofLines, htags]
  rcases hfront with hfront | hfront
  · rw [hfront]
  · rw [hfront, htrim]

private theorem cleanLine_append_right (hw : ∀ c ∈ w, isBlank c = true) (l : List Char) :
    cleanLine (l ++ w) = cleanLine l := by
  rw [cleanLine, trim_append_right hw, cleanLine]

private theorem cleanLine_withoutReturn (l : List Char) :
    cleanLine ((['\r'].isSuffixOf? l).getD l) = cleanLine l := by
  cases h : ['\r'].isSuffixOf? l with
  | none => rfl
  | some rest =>
    rw [eq_append_of_isSuffixOf? h]
    exact (cleanLine_append_right (List.forall_mem_singleton.mpr rfl) rest).symm

/-- Whether a final line break opens a further line or not does not matter, nor does a carriage
return in front of a line break. -/
theorem parse_eq (raw : String) :
    parse raw = ofLines ((raw.toList.splitOn '\n').map (Line.read ∘ cleanLine)) := by
  obtain ⟨init, last, hpieces⟩ : ∃ init last, raw.toList.splitOn '\n' = init ++ [last] :=
    ⟨_, _, (List.dropLast_concat_getLast (List.splitOn_ne_nil '\n' raw.toList)).symm⟩
  have hparse : parse raw = ofLines ((lines raw.toList).map (Line.read ∘ cleanLine)) := rfl
  have hended : (init.map fun l => (['\r'].isSuffixOf? l).getD l).map (Line.read ∘ cleanLine) =
      init.map (Line.read ∘ cleanLine) := by
    simp [cleanLine_withoutReturn]
  rw [hparse, lines, hpieces, List.dropLast_concat, List.getLast?_concat, List.map_append]
  cases last with
  | nil => rw [hended]; exact (ofLines_append_blank _).symm
  | cons c last => rw [List.map_append, hended]

private theorem map_cleanLine_splitOn (hv : ∀ c ∈ v, isBlank c = true) (hbreak : '\n' ∉ v)
    (hne : ls ≠ []) (h : ∀ l ∈ ls, '\n' ∉ l) :
    ((List.intercalate (v ++ ['\n']) ls).splitOn '\n').map cleanLine = ls.map cleanLine := by
  induction ls with
  | nil => exact absurd rfl hne
  | cons l ls ih =>
    obtain ⟨hl, hls⟩ := List.forall_mem_cons.mp h
    cases ls with
    | nil => rw [List.intercalate_singleton, List.splitOn_eq_singleton hl]
    | cons m ls =>
      have hfree : '\n' ∉ l ++ v := fun hmem => (List.mem_append.mp hmem).elim hl hbreak
      rw [List.intercalate_cons_cons, ← List.append_assoc, List.append_assoc,
        List.singleton_append, List.splitOn_append_cons_self_of_not_mem hfree, List.map_cons,
        cleanLine_append_right hv, ih (List.cons_ne_nil m ls) hls, List.map_cons (l := m :: ls)]

/-- A line of a comment that has no mark of a decoration at its ends. -/
structure IsBare (l : List Char) : Prop where
  unbroken : '\n' ∉ l
  notStarred : ¬ ['*'] <+: trim l
  notOpening : ¬ ['/', '*', '*'] <+: trim l
  notClosing : ¬ ['*', '/'] <:+ trim l

instance (l : List Char) : Decidable (IsBare l) :=
  decidable_of_iff ('\n' ∉ l ∧ ¬ ['*'] <+: trim l ∧ ¬ ['/', '*', '*'] <+: trim l ∧
      ¬ ['*', '/'] <:+ trim l)
    ⟨fun ⟨unbroken, star, opening, closing⟩ => ⟨unbroken, star, opening, closing⟩,
      fun ⟨unbroken, star, opening, closing⟩ => ⟨unbroken, star, opening, closing⟩⟩

theorem IsBare.cleanLine_eq (h : IsBare l) : cleanLine l = trim l := by
  have hstart : trimStart (trim l) = trim l := trimStart_of_head (isTrimmed_trim l).1
  simp only [cleanLine, isPrefixOf?_eq_none h.notOpening, isSuffixOf?_eq_none h.notClosing,
    Option.getD_none, hstart, isPrefixOf?_eq_none h.notStarred, trim_trim]

private theorem trim_behind_blank (l : List Char) : trim (' ' :: l) = trim l :=
  trim_append_left (v := [' ']) (List.forall_mem_singleton.mpr rfl) l

/-- Behind a star and white space a line does not close the comment if it does not by itself. -/
theorem IsBare.not_closing (h : IsBare l) : ¬ ['*', '/'] <:+ '*' :: trimEnd (' ' :: l) := by
  rintro ⟨before, hbefore⟩
  cases before with
  | nil =>
    obtain ⟨w, -, hsplit, -⟩ := exists_trimEnd (' ' :: l)
    rw [List.nil_append, List.cons.injEq] at hbefore
    rw [← hbefore.2] at hsplit
    cases hsplit
  | cons c before =>
    rw [List.cons_append, List.cons.injEq] at hbefore
    have hend : trim l = trimStart before ++ ['*', '/'] := by
      rw [← trim_behind_blank, ← trim_trimEnd, ← hbefore.2, trim, trimStart_append_cons rfl,
        trimEnd_append_cons rfl]
      rfl
    exact h.notClosing ⟨_, hend.symm⟩

private theorem IsBare.cleanLine_starred (h : IsBare l) :
    cleanLine (' ' :: '*' :: ' ' :: l) = trim l := by
  have htrim : trim (' ' :: '*' :: ' ' :: l) = '*' :: trimEnd (' ' :: l) :=
    trimEnd_append_cons rfl [] (' ' :: l)
  have hopening : ¬ ['/', '*', '*'] <+: '*' :: trimEnd (' ' :: l) := by simp
  have hstart : trimStart ('*' :: trimEnd (' ' :: l)) = '*' :: trimEnd (' ' :: l) := rfl
  have hstar : ['*'].isPrefixOf? ('*' :: trimEnd (' ' :: l)) = some (trimEnd (' ' :: l)) := rfl
  simp only [cleanLine, htrim, isPrefixOf?_eq_none hopening, isSuffixOf?_eq_none h.not_closing,
    Option.getD_none, hstart, hstar, Option.getD_some, trim_trimEnd, trim_behind_blank]

private theorem IsBare.cleanLine_enclosed (h : IsBare l) :
    cleanLine ('/' :: '*' :: '*' :: ' ' :: (l ++ [' ', '*', '/'])) = trim l := by
  have htrim : trim ('/' :: '*' :: '*' :: ' ' :: (l ++ [' ', '*', '/'])) =
      '/' :: '*' :: '*' :: ' ' :: (l ++ [' ', '*', '/']) := by
    refine IsTrimmed.trim ⟨fun c hc => ?_, fun c hc => ?_⟩
    · cases hc
      rfl
    · rw [show '/' :: '*' :: '*' :: ' ' :: (l ++ [' ', '*', '/']) =
        ('/' :: '*' :: '*' :: ' ' :: l) ++ [' ', '*', '/'] from rfl, List.getLast?_append] at hc
      cases hc
      rfl
  have hopening : ['/', '*', '*'].isPrefixOf? ('/' :: '*' :: '*' :: ' ' :: (l ++ [' ', '*', '/'])) =
    some (' ' :: (l ++ [' ', '*', '/'])) := rfl
  have hclosing : ['*', '/'].isSuffixOf? (' ' :: (l ++ [' ', '*', '/'])) =
      some (' ' :: (l ++ [' '])) :=
    isSuffixOf?_eq_some_iff.mpr (by simp)
  have hspace : trim (trimStart (' ' :: (l ++ [' ']))) = trim l := by
    rw [trim_trimStart, trim_behind_blank, trim_append_right (List.forall_mem_singleton.mpr rfl)]
  have hstar : ¬ ['*'] <+: trimStart (' ' :: (l ++ [' '])) := by
    rintro ⟨rest, hrest⟩
    apply h.notStarred
    rw [← hspace, ← hrest]
    exact ⟨trimEnd rest, (trimEnd_append_cons rfl [] rest).symm⟩
  simp only [cleanLine, htrim, hopening, hclosing, Option.getD_some, isPrefixOf?_eq_none hstar,
    Option.getD_none, hspace]

private theorem parse_line {line : String} (h : '\n' ∉ line.toList) :
    parse line = ofLines [Line.read (cleanLine line.toList)] := by
  rw [parse_eq, List.splitOn_eq_singleton h, List.map_singleton, Function.comp_apply]

/-- A comment says what its lines say, whatever breaks stand between them. -/
theorem parse_join {lineBreak : String} (hbreak : lineBreak = "\n" ∨ lineBreak = "\r\n")
    {ls : List String} (h : ∀ l ∈ ls, '\n' ∉ l.toList) :
    parse (Text.join lineBreak ls) = ofLines (ls.map (Line.read ∘ cleanLine ∘ String.toList)) := by
  obtain ⟨v, hchars, hv, hfree⟩ : ∃ v, lineBreak.toList = v ++ ['\n'] ∧
      (∀ c ∈ v, isBlank c = true) ∧ '\n' ∉ v := by
    rcases hbreak with rfl | rfl
    · exact ⟨[], rfl, List.forall_mem_nil _, by decide⟩
    · exact ⟨['\r'], rfl, List.forall_mem_singleton.mpr rfl, by decide⟩
  cases ls with
  | nil => exact parse_eq ""
  | cons l ls =>
    have hclean : ((List.intercalate (v ++ ['\n']) ((l :: ls).map String.toList)).splitOn '\n').map
        cleanLine = ((l :: ls).map String.toList).map cleanLine :=
      map_cleanLine_splitOn hv hfree (by simp) (by simpa using h)
    rw [parse_eq, Text.join, String.toList_ofList, hchars, ← List.map_map, hclean, List.map_map,
      List.map_map, Function.comp_assoc]

/-- A comment between its marks, with a star in front of each line, says what its lines say. A
comment on one line does so between the marks too. -/
theorem parse_decorated {lineBreak : String} (hbreak : lineBreak = "\n" ∨ lineBreak = "\r\n")
    {ls : List String} (h : ∀ l ∈ ls, IsBare l.toList) :
    parse (Text.join lineBreak ("/**" :: (ls.map (" * " ++ ·) ++ [" */"]))) =
        parse (Text.join lineBreak ls) ∧
      ∀ l ∈ ls, parse ("/** " ++ l ++ " */") = parse l := by
  have hplain : ∀ l ∈ ls, '\n' ∉ l.toList := fun l hl => (h l hl).unbroken
  have hdecorated : ∀ l ∈ "/**" :: (ls.map (" * " ++ ·) ++ [" */"]), '\n' ∉ l.toList := by
    refine List.forall_mem_cons.mpr ⟨by decide, List.forall_mem_append.mpr
      ⟨List.forall_mem_map.mpr fun l hl => ?_, by decide⟩⟩
    simpa using hplain l hl
  have hlines : (ls.map (" * " ++ ·)).map (Line.read ∘ cleanLine ∘ String.toList) =
      ls.map (Line.read ∘ cleanLine ∘ String.toList) := by
    rw [List.map_map]
    apply List.map_congr_left
    intro l hl
    simp only [Function.comp_apply, String.toList_append, (h l hl).cleanLine_eq]
    exact congrArg Line.read (h l hl).cleanLine_starred
  constructor
  · rw [parse_join hbreak hdecorated, parse_join hbreak hplain, List.map_cons, List.map_append,
      hlines]
    exact (ofLines_cons_blank _).trans (ofLines_append_blank _)
  · intro l hl
    have hchars : ("/** " ++ l ++ " */").toList =
        '/' :: '*' :: '*' :: ' ' :: (l.toList ++ [' ', '*', '/']) := by
      simp
    have hfree : '\n' ∉ ("/** " ++ l ++ " */").toList := by
      simpa [hchars] using hplain l hl
    rw [parse_line hfree, parse_line (hplain l hl), hchars, (h l hl).cleanLine_enclosed,
      (h l hl).cleanLine_eq]

theorem parse_decorated_find :
    (∀ l ∈ ["Finds a user.", "", "@param id the key", "  of 2*3 users"], IsBare l.toList) ∧
      parse (Text.join "\r\n" ["/**", " * Finds a user.", " * ", " * @param id the key",
          " *   of 2*3 users", " */"]) =
        ⟨"Finds a user.", [⟨"param", "id the key of 2*3 users"⟩]⟩ ∧
      parse "/** @param id the key */" = parse "@param id the key" := by
  have hbare : ∀ l ∈ ["Finds a user.", "", "@param id the key", "  of 2*3 users"],
      IsBare l.toList := by
    decide
  obtain ⟨hlines, hline⟩ := @parse_decorated "\r\n" (.inr rfl) _ hbare
  exact ⟨hbare, hlines.trans (by decide), hline "@param id the key" (by decide)⟩

end DocComment

end EndpointDocs

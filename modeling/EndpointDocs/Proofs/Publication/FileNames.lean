import Mathlib.Data.List.Infix
import EndpointDocs.Proofs.Chars.Words
import EndpointDocs.Proofs.Documentation.Collection
import EndpointDocs.Proofs.Path
import EndpointDocs.Publication

namespace EndpointDocs.Publication

variable {c : Char} {cs v w : List Char} {root name : String} {format : Format} {e e' : Endpoint}

/-- The runs of characters that are kept, empty ones included. -/
def runs (cs : List Char) : List (List Char) :=
  cs.splitOnP fun c => !isKept c

/-- The words of a text: its longest runs of characters that are kept in the names of files. -/
def words (cs : List Char) : List (List Char) :=
  (runs cs).filter (· ≠ [])

private theorem runs_cons_of_kept (h : isKept c = true) :
    runs (c :: cs) = (runs cs).modifyHead (List.cons c) := by
  rw [runs, List.splitOnP_cons_eq_if_modifyHead, h]
  rfl

theorem exists_runs (cs : List Char) : ∃ u us, runs cs = u :: us :=
  List.exists_cons_of_ne_nil (List.splitOnP_ne_nil _ cs)

theorem runs_append_cons (h : isKept c = false) (v cs : List Char) :
    runs (v ++ c :: cs) = runs v ++ runs cs :=
  List.splitOnP_append_cons v cs (by simp [h])

theorem words_append_cons (h : isKept c = false) (v cs : List Char) :
    words (v ++ c :: cs) = words v ++ words cs :=
  Chars.wordsBy_append_cons (by simp [h]) v cs

/-- White space has other codes than the characters that are kept. -/
theorem isKept_of_isBlank (h : Chars.isBlank c = true) : isKept c = false := by
  rw [← Bool.not_eq_true]
  intro hkept
  delta isKept Char.isAlphanum Char.isAlpha Char.isUpper Char.isLower Char.isDigit at hkept
  simp only [Chars.isBlank, Bool.or_eq_true, Bool.and_eq_true, decide_eq_true_eq, beq_iff_eq,
    Char.ext_iff, Char.le_def, UInt32.le_iff_toNat_le, ← UInt32.toNat_inj] at h hkept
  simp at h hkept
  omega

theorem words_trim (cs : List Char) : words (Chars.trim cs) = words cs :=
  Chars.wordsBy_trim (fun _ h => by simp [isKept_of_isBlank h]) cs

theorem isKept_of_mem_runs (h : w ∈ runs cs) : ∀ c ∈ w, isKept c = true := fun c hc => by
  simpa using Chars.not_separates_of_mem_splitOnP h c hc

private theorem not_mem_of_mem_words (h : w ∈ words cs) (hc : isKept c = false) : c ∉ w := by
  intro hmem
  rw [isKept_of_mem_runs (List.mem_filter.mp h).1 c hmem] at hc
  cases hc

/-- Words, each behind a low line. -/
def lined (ws : List (List Char)) : List Char :=
  ws.flatMap ('_' :: ·)

theorem append_lined (m : List Char) (ws : List (List Char)) :
    m ++ lined ws = ['_'].intercalate (m :: ws) := by
  induction ws generalizing m with
  | nil => simp [lined, List.intercalate]
  | cons w ws ih =>
    have hrest := ih w
    simp only [lined, List.intercalate, List.flatMap_cons, List.intersperse_cons_cons] at hrest ⊢
    simp [hrest]

theorem dropLastLine_cons (c : Char) (cs : List Char) (h : c ≠ '_' ∨ cs ≠ []) :
    dropLastLine (c :: cs) = c :: dropLastLine cs := by
  cases cs with
  | nil =>
    have hc : c ≠ '_' := h.resolve_right (not_not_intro rfl)
    simp [dropLastLine, hc]
  | cons d cs =>
    simp only [dropLastLine, List.getLast?_cons_cons, List.dropLast_cons_cons]
    split <;> rfl

/-- Squeezing keeps the runs and puts a low line in front of each but the first, empty ones left
out. Behind a low line that one stands in front of the first run too. -/
theorem dropLastLine_squeeze (cs : List Char) :
    dropLastLine (squeeze false cs) =
        (runs cs).headD [] ++ lined ((runs cs).tail.filter (· ≠ [])) ∧
      dropLastLine ('_' :: squeeze true cs) = lined (words cs) := by
  induction cs with
  | nil => decide
  | cons c cs ih =>
    obtain ⟨hfree, hlined⟩ := ih
    cases hc : isKept c with
    | true =>
      have hline : c ≠ '_' := by
        rintro rfl
        exact absurd hc (by decide)
      obtain ⟨u, us, hruns⟩ := exists_runs cs
      have hfirst : dropLastLine (c :: squeeze false cs) =
          (c :: u) ++ lined (us.filter (· ≠ [])) := by
        rw [dropLastLine_cons c _ (.inl hline), hfree, hruns]
        rfl
      have hnext : runs (c :: cs) = (c :: u) :: us := by
        rw [runs_cons_of_kept hc, hruns, List.modifyHead_cons]
      rw [squeeze, squeeze, if_pos hc, if_pos hc, dropLastLine_cons '_' _ (.inr (by simp)), hfirst,
        words, hnext]
      exact ⟨rfl, rfl⟩
    | false =>
      have hnext : runs (c :: cs) = [] :: runs cs := runs_append_cons hc [] cs
      rw [squeeze, squeeze, hc, words, hnext]
      exact ⟨hlined, hlined⟩

/-- Behind a character that is not kept all words are told apart. -/
theorem toList_fileWord {text : String} (h : text.toList.head? = some '/') :
    (fileWord text).toList = lined (words text.toList) := by
  obtain ⟨cs, hcs⟩ : ∃ cs, Chars.trim text.toList = '/' :: cs := by
    have hblank : Chars.isBlank '/' = false := by decide
    have hstart : Chars.trimStart text.toList = text.toList :=
      Chars.trimStart_of_head fun c hc => by
        rw [h, Option.some.injEq] at hc
        rw [← hc, hblank]
    obtain ⟨w, hw, htext, -⟩ := Chars.exists_trimEnd text.toList
    rw [Chars.trim, hstart]
    rw [htext, List.head?_append] at h
    cases hend : Chars.trimEnd text.toList with
    | nil =>
      rw [hend] at h
      rw [hw '/' (List.mem_of_head? h)] at hblank
      cases hblank
    | cons c cs =>
      rw [hend] at h
      cases h
      exact ⟨cs, rfl⟩
  have hwords : words text.toList = words cs := by
    rw [← words_trim, hcs]
    exact words_append_cons (by decide) [] cs
  have hslash : isKept '/' = false := by decide
  rw [fileWord, String.toList_ofList, hcs, squeeze, hslash, hwords]
  exact (dropLastLine_squeeze cs).2

private theorem toList_fileName (h : e.path.toList.head? = some '/') :
    (fileName format e).toList =
      ['_'].intercalate (e.method.name.toList :: words e.path.toList) ++
        '.' :: format.name.toList := by
  rw [← append_lined, ← toList_fileWord h]
  simp [fileName]

/-- Neither methods nor words have a low line in their names. -/
theorem not_mem_nameParts (e : Endpoint) :
    ∀ w ∈ e.method.name.toList :: words e.path.toList, '_' ∉ w := by
  intro w hw
  rcases List.mem_cons.mp hw with rfl | hw
  · cases e.method <;> decide
  · exact not_mem_of_mem_words hw (by decide)

theorem fileName_eq_iff (h : e.path.toList.head? = some '/')
    (h' : e'.path.toList.head? = some '/') :
    fileName format e = fileName format e' ↔
      e.method = e'.method ∧ words e.path.toList = words e'.path.toList := by
  constructor
  · intro heq
    have hchars := congrArg String.toList heq
    rw [toList_fileName h, toList_fileName h', List.append_cancel_right_eq] at hchars
    have hparts := congrArg (List.splitOn '_') hchars
    rw [List.splitOn_intercalate _ (not_mem_nameParts e) (List.cons_ne_nil _ _),
      List.splitOn_intercalate _ (not_mem_nameParts e') (List.cons_ne_nil _ _),
      List.cons.injEq] at hparts
    exact ⟨HttpMethod.name_injective (String.toList_inj.mp hparts.1), hparts.2⟩
  · rintro ⟨hmethod, hwords⟩
    apply String.toList_inj.mp
    rw [toList_fileName h, toList_fileName h', hmethod, hwords]

theorem mem_squeeze {behind : Bool} (h : c ∈ squeeze behind cs) : isKept c = true ∨ c = '_' := by
  induction cs generalizing behind with
  | nil => cases h
  | cons d cs ih =>
    rw [squeeze] at h
    split at h
    · next hd =>
      rcases List.mem_cons.mp h with rfl | h
      · exact .inl hd
      · exact ih h
    · split at h
      · exact ih h
      · rcases List.mem_cons.mp h with rfl | h
        · exact .inr rfl
        · exact ih h

theorem mem_fileWord {text : String} (h : c ∈ (fileWord text).toList) :
    isKept c = true ∨ c = '_' := by
  rw [fileWord, String.toList_ofList, dropLastLine] at h
  split at h
  · exact mem_squeeze (List.mem_of_mem_dropLast h)
  · exact mem_squeeze h

private theorem not_mem_fileWord {text : String} (hc : isKept c = false) (hline : c ≠ '_') :
    c ∉ (fileWord text).toList := by
  intro h
  rcases mem_fileWord h with hkept | rfl
  · rw [hkept] at hc
    cases hc
  · exact hline rfl

theorem isName_directory (category : Option String) : Path.IsName (directory category) := by
  have hdefault : Path.IsName "default" := ⟨by decide, by decide, by decide, by decide⟩
  unfold directory
  simp only
  split
  · exact hdefault
  · next hne =>
    cases category with
    | none => exact absurd rfl hne
    | some text =>
      refine ⟨hne, not_mem_fileWord (by decide) (by decide), ?_, ?_⟩ <;>
      · intro heq
        have hpoint : '.' ∉ (fileWord text).toList := not_mem_fileWord (by decide) (by decide)
        rw [show fileWord text = _ from heq] at hpoint
        exact absurd hpoint (by decide)

theorem isName_fileName (format : Format) (e : Endpoint) : Path.IsName (fileName format e) := by
  have hmethod : ∃ c cs, e.method.name.toList = c :: cs ∧ c ≠ '.' ∧ '/' ≠ c ∧ '/' ∉ cs := by
    cases e.method <;> exact ⟨_, _, rfl, by decide, by decide, by decide⟩
  obtain ⟨c, cs, hname, hpoint, hslash⟩ := hmethod
  have hchars : (fileName format e).toList =
      c :: (cs ++ ((fileWord e.path).toList ++ '.' :: format.name.toList)) := by
    simp [fileName, hname]
  have hfirst {text : String} (htext : text.toList.head? ≠ some c) : fileName format e ≠ text := by
    rintro rfl
    rw [hchars] at htext
    exact htext rfl
  refine ⟨hfirst (by simp), ?_, hfirst ?_, hfirst ?_⟩
  · have hword : '/' ∉ (fileWord e.path).toList := not_mem_fileWord (by decide) (by decide)
    have hformat : '/' ∉ format.name.toList := by cases format <;> decide
    rw [hchars]
    simp [hslash, hword, hformat]
  · simpa using Ne.symm hpoint
  · simpa using Ne.symm hpoint

/-- Where the document of an endpoint lies. -/
def documentPlace (root : String) (format : Format) (e : Endpoint) : Place :=
  Place.ofPath (documentPath root format e)

theorem documentPlace_eq (root : String) (format : Format) (e : Endpoint) :
    documentPlace root format e =
      Place.ofPath root ++ [directory e.category, fileName format e] := by
  rw [documentPlace, documentPath, (isName_fileName format e).ofPath_join,
    (isName_directory _).ofPath_join, List.append_assoc]
  rfl

theorem documentPlace_eq_iff : documentPlace root format e = documentPlace root format e' ↔
    directory e.category = directory e'.category ∧ fileName format e = fileName format e' := by
  rw [documentPlace_eq, documentPlace_eq, List.append_cancel_left_eq, List.cons.injEq,
    List.cons.injEq, and_iff_left rfl]

theorem documentPath_eq_iff_place : documentPath root format e = documentPath root format e' ↔
    documentPlace root format e = documentPlace root format e' := by
  constructor
  · exact congrArg Place.ofPath
  · intro h
    obtain ⟨hdirectory, hname⟩ := documentPlace_eq_iff.mp h
    rw [documentPath, documentPath, hdirectory, hname]

/-- Two endpoints have one path exactly if the methods, the directories and the words of the paths
are the same. -/
theorem documentPath_eq_iff (h : e.path.toList.head? = some '/')
    (h' : e'.path.toList.head? = some '/') :
    documentPath root format e = documentPath root format e' ↔
      e.method = e'.method ∧ directory e.category = directory e'.category ∧
        words e.path.toList = words e'.path.toList := by
  rw [documentPath_eq_iff_place, documentPlace_eq_iff, fileName_eq_iff h h', and_left_comm]

end EndpointDocs.Publication

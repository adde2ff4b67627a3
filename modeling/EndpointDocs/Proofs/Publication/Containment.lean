import Mathlib.Data.List.Chain
import EndpointDocs.Proofs.Publication.FileNames

namespace EndpointDocs.Publication

variable {c : Char} {cs : List Char} {text : String}

/-- The characters in what the names of documents take from an endpoint: letters and digits of
ASCII, and two signs. -/
def IsNameChar (c : Char) : Prop :=
  c.isAlphanum = true ∨ c = '-' ∨ c = '_'

/-- A part of the name of a file: low lines stand neither side by side nor at the end. -/
structure IsFileWord (cs : List Char) : Prop where
  chars : ∀ c ∈ cs, isKept c = true ∨ c = '_'
  single : cs.IsChain fun c d => c = '_' → d ≠ '_'
  ended : cs.getLast? ≠ some '_'

theorem isNameChar_iff : IsNameChar c ↔ isKept c = true ∨ c = '_' := by
  simp [IsNameChar, isKept, or_assoc]

private theorem ne_line_of_isKept (h : isKept c = true) : c ≠ '_' := by
  rintro rfl
  exact absurd h (by decide)

/-- A low line never stands behind another one, be it the one in front of the text. -/
theorem isChain_squeeze (behind : Bool) (cs : List Char) :
    (squeeze behind cs).IsChain (fun c d => c = '_' → d ≠ '_') ∧
      (behind = true → (squeeze behind cs).head? ≠ some '_') := by
  induction cs generalizing behind with
  | nil => simp [squeeze]
  | cons c cs ih =>
    rw [squeeze]
    split
    · next hkept =>
      have hne := ne_line_of_isKept hkept
      exact ⟨List.isChain_cons.mpr ⟨fun d _ heq => absurd heq hne, (ih false).1⟩, fun _ => by simpa⟩
    · split
      · exact ⟨(ih true).1, fun _ => (ih true).2 rfl⟩
      · next hbehind =>
        have hnext : ∀ d ∈ (squeeze true cs).head?, '_' = '_' → d ≠ '_' :=
          fun d hd _ heq => (ih true).2 rfl (heq ▸ hd)
        exact ⟨List.isChain_cons.mpr ⟨hnext, (ih true).1⟩, fun h => absurd h hbehind⟩

private theorem isFileWord_dropLastLine (hchars : ∀ c ∈ cs, isKept c = true ∨ c = '_')
    (hsingle : cs.IsChain fun c d => c = '_' → d ≠ '_') : IsFileWord (dropLastLine cs) := by
  unfold dropLastLine
  split
  · next hlast =>
    obtain ⟨before, rfl⟩ := List.getLast?_eq_some_iff.mp hlast
    obtain ⟨hbefore, -, hline⟩ := List.isChain_append.mp hsingle
    rw [List.dropLast_concat]
    refine ⟨fun c hc => hchars c (List.mem_append_left _ hc), hbefore, fun heq => ?_⟩
    exact hline '_' heq '_' rfl rfl rfl
  · next hlast => exact ⟨hchars, hsingle, hlast⟩

private theorem isFileWord_fileWord (text : String) : IsFileWord (fileWord text).toList := by
  rw [fileWord, String.toList_ofList]
  exact isFileWord_dropLastLine (fun _ => mem_squeeze) (isChain_squeeze false _).1

theorem squeeze_eq_self (behind : Bool) (hchars : ∀ c ∈ cs, isKept c = true ∨ c = '_')
    (hsingle : cs.IsChain fun c d => c = '_' → d ≠ '_')
    (hfirst : behind = true → cs.head? ≠ some '_') : squeeze behind cs = cs := by
  induction cs generalizing behind with
  | nil => rfl
  | cons c cs ih =>
    obtain ⟨hc, hcs⟩ := List.forall_mem_cons.mp hchars
    obtain ⟨hnext, htail⟩ := List.isChain_cons.mp hsingle
    rw [squeeze]
    split
    · rw [ih false hcs htail (fun h => absurd h Bool.false_ne_true)]
    · next hkept =>
      obtain rfl : c = '_' := hc.resolve_left hkept
      rw [if_neg fun h => hfirst h rfl, ih true hcs htail fun _ heq => hnext '_' heq rfl rfl]

/-- Parts of names are what making such a part leaves as it is. -/
theorem fileWord_eq_self_iff : fileWord text = text ↔ IsFileWord text.toList := by
  constructor
  · intro h
    rw [← h]
    exact isFileWord_fileWord text
  · rintro ⟨hchars, hsingle, hended⟩
    have hblank : ∀ c ∈ text.toList, Chars.isBlank c = false := fun c hc => by
      rw [← Bool.not_eq_true]
      intro hblank
      rcases hchars c hc with hkept | rfl
      · rw [isKept_of_isBlank hblank] at hkept
        cases hkept
      · cases hblank
    have htrimmed : Chars.IsTrimmed text.toList :=
      ⟨fun c hc => hblank c (List.mem_of_head? hc), fun c hc => hblank c (List.mem_of_getLast? hc)⟩
    rw [fileWord, htrimmed.trim, squeeze_eq_self false hchars hsingle
      (fun h => absurd h Bool.false_ne_true), dropLastLine, if_neg hended, String.ofList_toList]

private theorem IsFileWord.not_doubled (h : IsFileWord cs) : ¬ ['_', '_'] <:+: cs := by
  intro hinfix
  have hpair := h.single.infix hinfix
  exact List.isChain_pair.mp hpair rfl rfl

private theorem flatMap_words {ts : List (List Char)} (h : ∀ t ∈ ts, ∀ c ∈ t, isKept c = true) :
    ts.flatMap words = ts.filter (· ≠ []) := by
  induction ts with
  | nil => rfl
  | cons t ts ih =>
    obtain ⟨ht, hts⟩ := List.forall_mem_cons.mp h
    have hone : words t = [t].filter (· ≠ []) := by
      rw [words, runs, List.splitOnP_eq_singleton fun c hc => by simp [ht c hc]]
    rw [List.flatMap_cons, ih hts, hone, ← List.filter_append, List.singleton_append]

/-- The words of a text are those of the part of a name that is made of it. -/
theorem words_fileWord (text : String) : words (fileWord text).toList = words text.toList := by
  obtain ⟨u, us, hruns⟩ := exists_runs (Chars.trim text.toList)
  have hkept : ∀ t ∈ u :: us, ∀ c ∈ t, isKept c = true := by
    rw [← hruns]
    exact fun _ => isKept_of_mem_runs
  have hsplit (ts : List (List Char)) : words (['_'].intercalate ts) = ts.flatMap words :=
    @Chars.wordsBy_intercalate (fun c => !isKept c) '_' (by decide) ts
  rw [fileWord, String.toList_ofList, (dropLastLine_squeeze _).1, append_lined, hsplit,
    flatMap_words, ← words_trim, words, hruns]
  · simp [List.filter_cons]
  · simp only [hruns, List.headD_cons, List.tail_cons]
    exact fun t ht => hkept t ((List.filter_sublist.cons_cons u).subset ht)

private theorem isNameChar_fileWord (text : String) : ∀ c ∈ (fileWord text).toList, IsNameChar c :=
  fun _ hc => isNameChar_iff.mpr (mem_fileWord hc)

private theorem isNameChar_directory (category : Option String) :
    ∀ c ∈ (directory category).toList, IsNameChar c := by
  unfold directory
  simp only
  split
  · simp [IsNameChar]
  · cases category with
    | none => exact fun _ hc => absurd hc (by simp)
    | some text => exact isNameChar_fileWord text

/-- The path of a document leads from the root to a directory in it and to a file in that one. The
directory has a name, of letters, digits and two signs; the name of the file is the method, a text
of such characters and the format. What is made of a text for these names has no two low lines side
by side and none at the end, is left as it is when it is made again, and keeps the words. -/
theorem documents_stay (root : String) (format : Format) (e : Endpoint) :
    Path.parts (documentPath root format e) =
        Path.parts root ++ [directory e.category, fileName format e] ∧
      Place.ofPath (documentPath root format e) =
        Place.ofPath root ++ [directory e.category, fileName format e] ∧
      (directory e.category ≠ "" ∧ ∀ c ∈ (directory e.category).toList, IsNameChar c) ∧
      (fileName format e = e.method.name ++ fileWord e.path ++ "." ++ format.name ∧
        ∀ c ∈ (fileWord e.path).toList, IsNameChar c) ∧
      ∀ text, (¬ ['_', '_'] <:+: (fileWord text).toList ∧
          (fileWord text).toList.getLast? ≠ some '_') ∧
        fileWord (fileWord text) = fileWord text ∧
        words (fileWord text).toList = words text.toList := by
  refine ⟨?_, documentPlace_eq root format e, ?_, ?_, fun text => ?_⟩
  · rw [documentPath, (isName_fileName format e).parts_join, (isName_directory _).parts_join,
      List.append_assoc, List.singleton_append]
  · exact ⟨(isName_directory _).nonempty, isNameChar_directory _⟩
  · exact ⟨rfl, isNameChar_fileWord _⟩
  · have hword := isFileWord_fileWord text
    exact ⟨⟨hword.not_doubled, hword.ended⟩, fileWord_eq_self_iff.mpr hword, words_fileWord text⟩

end EndpointDocs.Publication

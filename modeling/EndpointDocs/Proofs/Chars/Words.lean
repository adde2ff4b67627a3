import EndpointDocs.Proofs.Chars.Cutting

namespace EndpointDocs.Chars

variable {separates : Char → Bool} {c : Char} {v w cs : List Char}

/-- The longest runs of characters that do not separate. -/
def wordsBy (separates : Char → Bool) (cs : List Char) : List (List Char) :=
  (cs.splitOnP separates).filter (· ≠ [])

theorem not_separates_of_mem_splitOnP (h : w ∈ cs.splitOnP separates) :
    ∀ c ∈ w, separates c = false := by
  induction cs using cut_induction (p := fun c => !separates c) with
  | all n hn =>
    have hfree : ∀ c ∈ n, separates c = false := by simpa using hn
    rw [List.splitOnP_eq_singleton hfree, List.mem_singleton] at h
    exact h ▸ hfree
  | cut n c cs hn hc ih =>
    have hfree : ∀ c ∈ n, separates c = false := by simpa using hn
    rw [List.splitOnP_append_cons_of_forall_mem hfree c (by simpa using hc)] at h
    rcases List.mem_cons.mp h with rfl | h
    · exact hfree
    · exact ih h

/-- The words of a text are found part by part around a character that separates them. -/
theorem wordsBy_append_cons (h : separates c = true) (v cs : List Char) :
    wordsBy separates (v ++ c :: cs) = wordsBy separates v ++ wordsBy separates cs := by
  rw [wordsBy, List.splitOnP_append_cons v cs h, List.filter_append]
  rfl

theorem wordsBy_cons (h : separates c = true) (cs : List Char) :
    wordsBy separates (c :: cs) = wordsBy separates cs :=
  wordsBy_append_cons h [] cs

theorem wordsBy_of_separating (h : ∀ c ∈ v, separates c = true) : wordsBy separates v = [] := by
  induction v with
  | nil => rfl
  | cons c v ih =>
    obtain ⟨hc, hv⟩ := List.forall_mem_cons.mp h
    rw [wordsBy_cons hc, ih hv]

/-- Characters that separate add no word at either end. -/
theorem wordsBy_append_separating (hv : ∀ c ∈ v, separates c = true)
    (hw : ∀ c ∈ w, separates c = true) :
    wordsBy separates (v ++ cs ++ w) = wordsBy separates cs := by
  have hend : wordsBy separates (cs ++ w) = wordsBy separates cs := by
    cases w with
    | nil => rw [List.append_nil]
    | cons c w =>
      obtain ⟨hc, hw⟩ := List.forall_mem_cons.mp hw
      rw [wordsBy_append_cons hc, wordsBy_of_separating hw, List.append_nil]
  rw [List.append_assoc]
  induction v with
  | nil => exact hend
  | cons c v ih =>
    obtain ⟨hc, hv⟩ := List.forall_mem_cons.mp hv
    rw [List.cons_append, wordsBy_cons hc, ih hv]

theorem wordsBy_trim (h : ∀ c, isBlank c = true → separates c = true) (cs : List Char) :
    wordsBy separates (trim cs) = wordsBy separates cs := by
  obtain ⟨v, w, hv, hw, hcs, -⟩ := exists_trim cs
  have hsame : wordsBy separates (v ++ trim cs ++ w) = wordsBy separates (trim cs) :=
    wordsBy_append_separating (fun c hc => h c (hv c hc)) fun c hc => h c (hw c hc)
  rw [← hsame, ← hcs]

/-- A text without separating characters is one word. -/
theorem wordsBy_of_free (hne : w ≠ []) (h : ∀ c ∈ w, separates c = false) :
    wordsBy separates w = [w] := by
  rw [wordsBy, List.splitOnP_eq_singleton h]
  simp [hne]

/-- A run without separating characters is the first word if the text goes on with one. -/
theorem wordsBy_free_append (hne : w ≠ []) (h : ∀ c ∈ w, separates c = false)
    (hcs : ∀ c, cs.head? = some c → separates c = true) :
    wordsBy separates (w ++ cs) = w :: wordsBy separates cs := by
  cases cs with
  | nil => rw [List.append_nil, wordsBy_of_free hne h]; rfl
  | cons c cs =>
    have hc := hcs c rfl
    rw [wordsBy_append_cons hc, wordsBy_of_free hne h, wordsBy_cons hc, List.singleton_append]

/-- Texts with a separating character between them keep their words. -/
theorem wordsBy_intercalate (h : separates c = true) (ts : List (List Char)) :
    wordsBy separates (List.intercalate [c] ts) = ts.flatMap (wordsBy separates) := by
  induction ts with
  | nil => rfl
  | cons t ts ih =>
    cases ts with
    | nil => simp
    | cons u ts =>
      rw [List.intercalate_cons_cons, List.append_assoc, List.singleton_append,
        wordsBy_append_cons h, ih]
      exact List.flatMap_cons.symm

theorem chunks_eq (cs : List Char) : chunks cs = cs.splitOnP isBlank := by
  induction cs with
  | nil => rfl
  | cons c cs ih =>
    rw [chunks, List.splitOnP_cons_eq_if_modifyHead, ih]
    split
    · rfl
    · cases h : cs.splitOnP isBlank with
      | nil => exact absurd h (List.splitOnP_ne_nil _ cs)
      | cons u us => rfl

theorem words_eq (cs : List Char) : words cs = wordsBy isBlank cs := by
  rw [words, wordsBy, chunks_eq]
  congr
  funext u
  cases u <;> rfl

/-- Trimming takes no word away. -/
theorem words_trim (cs : List Char) : words (trim cs) = words cs := by
  rw [words_eq, words_eq, wordsBy_trim fun _ h => h]

end EndpointDocs.Chars

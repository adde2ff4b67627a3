import EndpointDocs.Proofs.TypeText.Closing

namespace EndpointDocs

namespace Chars

variable {sep cs ds v : List Char}

theorem afterLast?_append_right (h : afterLast? sep cs = some v) (l : List Char) :
    afterLast? sep (l ++ cs) = some v := by
  induction l with
  | nil => exact h
  | cons c l ih => rw [List.cons_append, afterLast?, ih, Option.some_or]

theorem afterLast?_eq_none_of_suffix (h : afterLast? sep cs = none) (hs : ds <:+ cs) :
    afterLast? sep ds = none := by
  obtain ⟨l, rfl⟩ := hs
  cases hd : afterLast? sep ds with
  | none => rfl
  | some v =>
    rw [afterLast?_append_right hd] at h
    cases h

theorem afterLast?_eq_none_of_not_mem {c : Char} (hsep : c ∈ sep) (hcs : c ∉ cs) :
    afterLast? sep cs = none := by
  cases h : afterLast? sep cs with
  | none => rfl
  | some v =>
    exact absurd ((suffix_of_afterLast? h).subset (List.mem_append_left v hsep)) hcs

theorem afterLast_suffix (sep cs : List Char) : afterLast sep cs <:+ cs := by
  unfold afterLast
  cases h : afterLast? sep cs with
  | none => exact List.suffix_rfl
  | some v => exact (List.suffix_append sep v).trans (suffix_of_afterLast? h)

/-- Behind the last separator there is no further one. -/
theorem afterLast?_afterLast (hsep : sep ≠ []) (cs : List Char) :
    afterLast? sep (afterLast sep cs) = none := by
  unfold afterLast
  cases h : afterLast? sep cs with
  | none => exact h
  | some v =>
    have hsuffix := suffix_of_afterLast? h
    cases hv : afterLast? sep v with
    | none => exact hv
    | some w =>
      -- The separator in `v` would be the last one of the whole text, and what is behind it `v`.
      obtain ⟨l, rfl⟩ := hsuffix
      rw [← List.append_assoc, afterLast?_append_right hv] at h
      cases h
      have hlength := (suffix_of_afterLast? hv).length_le
      rw [List.length_append] at hlength
      have hpos := List.length_pos_of_ne_nil hsep
      omega

end Chars

namespace TypeText

open Chars

theorem shortName_parts (text : String) :
    afterLast? ['.'] (shortName text).toList = none ∧
      afterLast? [':', ':'] (shortName text).toList = none ∧ '<' ∉ (shortName text).toList := by
  rw [shortName, String.toList_ofList]
  have hbehind := afterLast_suffix ['.']
    (afterLast [':', ':'] ((trim text.toList).takeWhile (· ≠ '<')))
  refine ⟨afterLast?_afterLast (List.cons_ne_nil _ _) _, ?_, fun hmem => ?_⟩
  · exact afterLast?_eq_none_of_suffix (afterLast?_afterLast (List.cons_ne_nil _ _) _) hbehind
  · have hpath := (hbehind.trans (afterLast_suffix _ _)).subset hmem
    simpa using List.mem_takeWhile_imp hpath

/-- A name of the letter z alone, a dot and a bracket around a short name. -/
def lengthened (n : Nat) (s : List Char) : List Char :=
  List.replicate (n + 1) 'z' ++ '.' :: s

theorem not_mem_lengthened {c : Char} (hz : c ≠ 'z') (hdot : c ≠ '.') {s : List Char} (hs : c ∉ s)
    (n : Nat) : c ∉ lengthened n s := by
  simp [lengthened, hz, hdot, hs]

theorem isTrimmed_lengthened (n : Nat) (s : List Char) : IsTrimmed (lengthened n s ++ ['<']) := by
  have hstart : ∀ x, (List.replicate (n + 1) 'z').head? = some x → isBlank x = false := by
    intro x hx
    cases hx
    rfl
  have htrimmed : IsTrimmed (List.replicate (n + 1) 'z' ++ ('.' :: s ++ ['<'])) :=
    isTrimmed_append hstart rfl rfl
  rwa [List.cons_append, ← List.cons_append, ← List.append_assoc] at htrimmed

/-- Every short name is that of names of any length, of which nothing is arguments. -/
theorem exists_longer (text : String) (n : Nat) :
    ∃ name, rawName name = name ∧ n < name.length ∧ shortName name = shortName text := by
  obtain ⟨hdots, hcolons, hopen⟩ := shortName_parts text
  generalize hs : (shortName text).toList = s at hdots hcolons hopen
  have hfree : '<' ∉ lengthened n s := not_mem_lengthened (by decide) (by decide) hopen n
  have htrim := (isTrimmed_lengthened n s).trim
  refine ⟨String.ofList (lengthened n s ++ ['<']), ?_, ?_, ?_⟩
  · -- The bracket stays open, so it belongs to the name.
    rw [rawName, String.toList_ofList, splitChars, htrim, splitTrimmed, cutAtFirst_append hfree]
    rfl
  · rw [← String.length_toList, String.toList_ofList]
    simp [lengthened]
    omega
  · have hpath : (lengthened n s ++ ['<']).takeWhile (· ≠ '<') = lengthened n s := by
      rw [List.takeWhile_append_of_pos]
      · simp
      · intro c hc
        have hne : c ≠ '<' := fun heq => hfree (heq ▸ hc)
        simpa using hne
    have hz : afterLast? [':', ':'] (List.replicate (n + 1) 'z') = none :=
      afterLast?_eq_none_of_not_mem List.mem_cons_self (by simp)
    have hcolon : afterLast [':', ':'] (lengthened n s) = lengthened n s := by
      have hnone : afterLast? [':', ':'] (lengthened n s) = none := by
        rw [lengthened, afterLast?_append_cons (List.cons_ne_nil _ _) (by decide), hcolons, hz]
        rfl
      rw [afterLast, hnone, Option.getD_none]
    have hdot : afterLast ['.'] (lengthened n s) = s := by
      have hlast : afterLast? ['.'] ('.' :: s) = some s := by
        rw [afterLast?, hdots, Option.none_or]
        rfl
      rw [afterLast, lengthened, afterLast?_append_right hlast, Option.getD_some]
    rw [shortName, String.toList_ofList, htrim, hpath, hcolon, hdot, ← hs, String.ofList_toList]

end TypeText

end EndpointDocs

import EndpointDocs.Proofs.TypeText.Composition
import EndpointDocs.Proofs.TypeText.Parts
import EndpointDocs.Proofs.TypeText.Replacing

namespace EndpointDocs.TypeText

open Chars

/-- One of the whole names in the text is `x`. -/
def Mentions (text x : String) : Prop :=
  x ≠ "" ∧ x ∈ names text

instance (text x : String) : Decidable (Mentions text x) :=
  inferInstanceAs (Decidable (x ≠ "" ∧ x ∈ names text))

variable {b : Bindings} {a m r cs : List Char} {text x : String}

theorem mentions_iff : Mentions text x ↔ x.toList ≠ [] ∧ x.toList ∈ namesOf text.toList := by
  rw [Mentions, mem_names, Ne, Ne, String.toList_eq_nil_iff]

/-- White space around a text mentions nothing. -/
theorem replaceNames_of_unbound_trim (h : Unbound b (trim cs)) : replaceNames b cs = cs := by
  obtain ⟨v, w, hv, hw, hcs, _⟩ := exists_trim cs
  have hgaps : replaceNames b (v ++ trim cs ++ w) = v ++ replaceNames b (trim cs) ++ w := by
    rw [replaceNames_append_gaps fun c hc => isNameChar_of_isBlank (hw c hc),
      replaceNames_gaps fun c hc => isNameChar_of_isBlank (hv c hc)]
  rw [replaceNames_of_unbound h, ← hcs] at hgaps
  exact hgaps

theorem unbound_of_not_mentions (h : ∀ k ∈ b.keys, ¬ Mentions text k) :
    Unbound b text.toList :=
  fun k hk hne hmem => h k hk (mentions_iff.mpr ⟨hne, hmem⟩)

theorem substitute_of_not_mentions (h : ∀ k ∈ b.keys, ¬ Mentions text k) :
    substitute b text = text := by
  apply String.toList_injective
  rw [toList_substitute, replaceNames_of_unbound (unbound_of_not_mentions h)]

/-- What stands in front of the first bracket and what stands between it and the last one, if
another one closes it. -/
theorem exists_splitChars_of_brackets (ha : '<' ∉ a) (m r : List Char) :
    ∃ inner, beforeLast '>' (m ++ '>' :: trimEnd r) = some inner ∧
      splitChars (a ++ '<' :: (m ++ '>' :: r)) = (trim a, trim inner) := by
  have htrim : trim (a ++ '<' :: (m ++ '>' :: r)) =
      trimStart a ++ '<' :: (m ++ '>' :: trimEnd r) := by
    rw [trim, trimStart_append_cons rfl, ← List.cons_append, ← List.append_assoc,
      trimEnd_append_cons rfl, List.append_assoc, List.cons_append]
  have hfree : '<' ∉ trimStart a := fun hmem => ha ((List.dropWhile_suffix _).subset hmem)
  have hsome : beforeLast '>' (m ++ '>' :: trimEnd r) ≠ none := by
    rw [Ne, beforeLast_eq_none_iff]
    simp
  obtain ⟨inner, hinner⟩ := Option.ne_none_iff_exists'.mp hsome
  refine ⟨inner, hinner, ?_⟩
  rw [splitChars, htrim, splitTrimmed, cutAtFirst_append hfree]
  simp only [hinner, trim_trimStart]

theorem splitChars_fst_of_brackets (ha : '<' ∉ a) (m r : List Char) :
    (splitChars (a ++ '<' :: (m ++ '>' :: r))).1 = trim a := by
  obtain ⟨inner, _, hsplit⟩ := exists_splitChars_of_brackets ha m r
  rw [hsplit]

theorem splitChars_snd_of_brackets (ha : '<' ∉ a) (m : List Char) (hr : '>' ∉ r) :
    (splitChars (a ++ '<' :: (m ++ '>' :: r))).2 = trim m := by
  obtain ⟨inner, hinner, hsplit⟩ := exists_splitChars_of_brackets ha m r
  have hfree : '>' ∉ trimEnd r := by
    obtain ⟨w, _, hend, _⟩ := exists_trimEnd r
    exact fun hmem => hr (hend ▸ List.mem_append_left w hmem)
  rw [beforeLast_append hfree] at hinner
  cases hinner
  rw [hsplit]

/-- A text has a name in front of brackets, or all of it is the name. -/
theorem splitChars_fst_cases (cs : List Char) :
    (∃ a m r, cs = a ++ '<' :: (m ++ '>' :: r) ∧ '<' ∉ a) ∨ (splitChars cs).1 = trim cs := by
  cases hcut : cutAtFirst '<' (trim cs) with
  | none => exact .inr (by rw [splitChars, splitTrimmed, hcut])
  | some parts =>
    obtain ⟨head, tail⟩ := parts
    cases hlast : beforeLast '>' tail with
    | none => exact .inr (by rw [splitChars, splitTrimmed, hcut]; simp only [hlast])
    | some inner =>
      obtain ⟨hparts, hhead⟩ := cutAtFirst_eq_some hcut
      obtain ⟨rest, rfl, _⟩ := beforeLast_eq_some hlast
      obtain ⟨v, w, hv, _, hcs, _⟩ := exists_trim cs
      refine .inl ⟨v ++ head, inner, rest ++ w, ?_, ?_⟩
      · rw [hcs, hparts]
        simp
      · rw [List.mem_append]
        rintro (hmem | hmem)
        · have hblank := hv _ hmem
          cases hblank
        · exact hhead hmem

/-- Parameters that the name does not mention can be bound behind it. -/
theorem rawName_substitute_of_not_mentions (h : ∀ k ∈ b.keys, ¬ Mentions (rawName text) k) :
    rawName (substitute b text) = rawName text := by
  have hraw : Unbound b (splitChars text.toList).1 := by
    have hunbound := unbound_of_not_mentions h
    rwa [rawName, String.toList_ofList] at hunbound
  rw [rawName, toList_substitute, rawName]
  congr 1
  rcases splitChars_fst_cases text.toList with ⟨a, m, r, htext, ha⟩ | hall
  · rw [htext, splitChars_fst_of_brackets ha] at hraw
    have hname : replaceNames b a = a := replaceNames_of_unbound_trim hraw
    rw [htext, replaceNames_gap b a _ isNameChar_lt, replaceNames_gap b m r isNameChar_gt, hname,
      splitChars_fst_of_brackets ha, splitChars_fst_of_brackets ha]
  · rw [hall] at hraw
    rw [replaceNames_of_unbound_trim hraw]

/-- Names that are bound stand between the outermost angle brackets of the text, if anywhere. -/
def BindsInside (b : Bindings) (text : String) : Prop :=
  Unbound b text.toList ∨
    ∃ a m r, text.toList = a ++ '<' :: (m ++ '>' :: r) ∧ '<' ∉ a ∧ '>' ∉ r ∧
      Unbound b a ∧ Unbound b r

theorem BindsInside.rawName_substitute (h : BindsInside b text) :
    rawName (substitute b text) = rawName text := by
  rw [rawName, toList_substitute, rawName]
  congr 1
  rcases h with hnone | ⟨a, m, r, htext, ha, _, hbefore, _⟩
  · rw [replaceNames_of_unbound hnone]
  · rw [htext, replaceNames_gap b a _ isNameChar_lt, replaceNames_gap b m r isNameChar_gt,
      replaceNames_of_unbound hbefore, splitChars_fst_of_brackets ha, splitChars_fst_of_brackets ha]

/-- Parameters that are mentioned between the brackets only are bound in each argument. -/
theorem BindsInside.arguments_substitute (h : BindsInside b text) (hb : PutsArguments b) :
    arguments (substitute b text) = (arguments text).map (substitute b) := by
  rcases h with hnone | ⟨a, m, r, htext, ha, hr, hbefore, hbehind⟩
  · have hsame : substitute b text = text := by
      apply String.toList_injective
      rw [toList_substitute, replaceNames_of_unbound hnone]
    rw [hsame]
    refine ((List.map_congr_left fun x hx => ?_).trans (List.map_id' _)).symm
    apply substitute_of_not_mentions
    intro k hk hmentions
    exact hnone k hk (mentions_iff.mp hmentions).1 (mem_names.mp (names_arguments hx hmentions.2))
  · have hinner : (splitChars (replaceNames b text.toList)).2 =
        replaceNames b (splitChars text.toList).2 := by
      rw [htext, replaceNames_gap b a _ isNameChar_lt, replaceNames_gap b m r isNameChar_gt,
        replaceNames_of_unbound hbefore, replaceNames_of_unbound hbehind,
        splitChars_snd_of_brackets ha _ hr, splitChars_snd_of_brackets ha _ hr, hb.trim]
    rw [arguments_eq, toList_substitute, hinner, ofList_replaceNames, argumentsOf_substitute hb,
      ← arguments_eq]

variable {inner : Bindings}

/-- Every name of the text that is bound in `b` is bound further in. -/
def BoundWithin (inner b : Bindings) (text : String) : Prop :=
  ∀ k ∈ b.keys, Mentions text k → k ∈ inner.keys

/-- Bindings that take effect further in can be replaced in first. -/
theorem substitute_substitute (h : BoundWithin inner b text) :
    substitute b (substitute inner text) =
      substitute (inner.mapEntries id (substitute b)) text := by
  apply String.toList_injective
  rw [toList_substitute, toList_substitute, toList_substitute]
  refine replaceNames_replaceNames fun n hn => ?_
  by_cases hnil : n = []
  · subst hnil
    rfl
  refine replaceNames_replaceName (isName_of_mem_namesOf hn) ?_
  have hget : (inner.mapEntries id (substitute b)).get? (String.ofList n) =
      (inner.get? (String.ofList n)).map (substitute b) :=
    OrderedMap.get?_mapEntries fun _ _ => Iff.rfl
  rw [hget]
  cases hvalue : inner.get? (String.ofList n) with
  | some v => rfl
  | none =>
    rw [Option.map_none, Option.none_or, eq_comm, Option.eq_none_iff_forall_ne_some]
    intro v hv
    have hk : String.ofList n ∈ b.keys := OrderedMap.mem_keys_of_get? hv
    have hmentions : Mentions text (String.ofList n) := by
      rw [mentions_iff, String.toList_ofList]
      exact ⟨hnil, hn⟩
    exact OrderedMap.get?_ne_none (h _ hk hmentions) hvalue

end EndpointDocs.TypeText

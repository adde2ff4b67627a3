import EndpointDocs.Proofs.TypeText.Names

namespace EndpointDocs.TypeText

variable {first second both : Bindings} {n cs : List Char} {k : String}

/-- The values of `first` with the names bound in `second` replaced, and those values of `second`
whose names `first` does not bind. -/
def Bindings.andThen (first second : Bindings) : Bindings :=
  first.mapEntries id (substitute second) ++ second.filter fun e => e.1 ∉ first.keys

/-- A value of the first bindings has the second ones put into it. -/
theorem Bindings.get?_andThen (first second : Bindings) (k : String) :
    (first.andThen second).get? k = ((first.get? k).map (substitute second)).or (second.get? k) := by
  have hfirst : (first.mapEntries id (substitute second)).get? k =
      (first.get? k).map (substitute second) :=
    OrderedMap.get?_mapEntries fun _ _ => Iff.rfl
  have hsecond : OrderedMap.get? (second.filter fun e => e.1 ∉ first.keys) k =
      if decide (k ∉ first.keys) then second.get? k else none :=
    OrderedMap.get?_filter_keys (fun key => key ∉ first.keys) second k
  rw [andThen, OrderedMap.get?_append, hfirst, hsecond]
  cases hk : first.get? k with
  | some v => rfl
  | none =>
    have hfree : k ∉ first.keys := fun hmem => OrderedMap.get?_ne_none hmem hk
    rw [if_pos (decide_eq_true hfree)]

/-- A name that is replaced twice is replaced once by what stands for it in the end. -/
theorem replaceNames_replaceName (hn : IsName n)
    (hboth : both.get? (String.ofList n) =
      ((first.get? (String.ofList n)).map (substitute second)).or
        (second.get? (String.ofList n))) :
    replaceNames second (replaceName first n) = replaceName both n := by
  by_cases hnil : n = []
  · subst hnil
    rfl
  · rw [replaceName_of_ne_nil hnil, replaceName_of_ne_nil hnil, hboth]
    cases first.get? (String.ofList n) with
    | some v => exact (toList_substitute second v).symm
    | none =>
      rw [Option.map_none, Option.map_none, Option.none_or, Option.getD_none,
        replaceNames_name hn, replaceName_of_ne_nil hnil]

/-- What is replaced in a text and then in the outcome can be replaced name by name. -/
theorem replaceNames_replaceNames
    (h : ∀ n ∈ namesOf cs, replaceNames second (replaceName first n) = replaceName both n) :
    replaceNames second (replaceNames first cs) = replaceNames both cs := by
  induction cs using names_induction with
  | name n hn =>
    rw [replaceNames_name hn, replaceNames_name hn]
    exact h n (namesOf_name hn ▸ List.mem_singleton_self n)
  | gap n c cs hn hc ih =>
    rw [namesOf_gap n cs hc, namesOf_name hn] at h
    have hfirst := h n (List.mem_append_left _ (List.mem_singleton_self n))
    have hrest := ih fun m hm => h m (List.mem_append_right _ hm)
    rw [replaceNames_gap first n cs hc, replaceNames_gap second _ _ hc, replaceNames_gap both n cs hc,
      replaceNames_name hn, replaceNames_name hn, hfirst, hrest]

theorem substitute_andThen (first second : Bindings) (text : String) :
    substitute second (substitute first text) = substitute (first.andThen second) text := by
  apply String.toList_injective
  rw [toList_substitute, toList_substitute, toList_substitute]
  refine replaceNames_replaceNames fun n hn => ?_
  exact replaceNames_replaceName (isName_of_mem_namesOf hn) (first.get?_andThen second _)

end EndpointDocs.TypeText

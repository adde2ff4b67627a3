import EndpointDocs.Proofs.Member.Renaming
import EndpointDocs.Proofs.TypeText.Composition

namespace EndpointDocs.Catalog

open TypeText

variable {first second both : Bindings} {c : Catalog} {t : TypeDecl}

theorem mapText_andThen (first second : Bindings) (f : FieldDecl) :
    (f.mapText (substitute first)).mapText (substitute second) =
      f.mapText (substitute (first.andThen second)) := by
  rw [FieldDecl.mapText, FieldDecl.mapText, FieldDecl.mapText, substitute_andThen]

theorem bindMethod_andThen (first second : Bindings) (m : MethodDecl) :
    bindMethod second (bindMethod first m) = bindMethod (first.andThen second) m := by
  change (m.mapTexts (substitute first)).mapTexts (substitute second) = m.mapTexts (substitute _)
  rw [MethodDecl.mapTexts_mapTexts]
  exact MethodDecl.mapTexts_congr fun text _ => substitute_andThen first second text

private theorem map_allFields (c : Catalog) (t : TypeDecl) (b : Bindings) :
    (c.allFields t).map (·.mapText (substitute b)) =
      ((c.ancestors t).flatMap fun (a, inner) =>
        a.fields.map (·.mapText (substitute (inner.andThen b)))).foldl addField
          (t.fields.map (·.mapText (substitute b))) := by
  have hinherited : ((c.ancestors t).flatMap fun (a, inner) =>
        a.fields.map (·.mapText (substitute (inner.andThen b)))) =
      ((c.ancestors t).flatMap fun e => e.1.fields.map (·.mapText (substitute e.2))).map
        (·.mapText (substitute b)) := by
    rw [List.map_flatMap]
    refine List.flatMap_congr fun e _ => ?_
    rw [List.map_map]
    exact List.map_congr_left fun f _ => (mapText_andThen e.2 b f).symm
  rw [hinherited, List.foldl_map]
  exact (List.foldl_hom _ fun fields f => addField_mapText fields f).symm

private theorem map_allMethods (c : Catalog) (t : TypeDecl) (b : Bindings) :
    (c.allMethods t).map (bindMethod b) =
      ((c.ancestors t).flatMap fun (a, inner) =>
        a.methods.map (bindMethod (inner.andThen b))).foldl (fun ms m => addInherited m ms)
          (t.methods.map (bindMethod b)) := by
  have hinherited : ((c.ancestors t).flatMap fun (a, inner) =>
        a.methods.map (bindMethod (inner.andThen b))) =
      ((c.ancestors t).flatMap fun e => e.1.methods.map (bindMethod e.2)).map (bindMethod b) := by
    rw [List.map_flatMap]
    refine List.flatMap_congr fun e _ => ?_
    rw [List.map_map]
    exact List.map_congr_left fun m _ => (bindMethod_andThen e.2 b m).symm
  rw [hinherited]
  exact (foldl_addInherited_mapTexts _ _).symm

/-- Binding the names of a text and then those of the outcome is binding once, with the values of
`second` put into those of `first`. So the fields and methods of a type, of which the inherited ones
have the parameters of an ancestor bound, are those of the declarations bound once. -/
theorem substitute_twice (hboth : ∀ k,
      both.get? k = ((first.get? k).map (substitute second)).or (second.get? k)) :
    (∀ text, substitute second (substitute first text) = substitute both text) ∧
    ∀ (c : Catalog) (t : TypeDecl),
      (c.allFields t).map (·.mapText (substitute second)) =
          ((c.ancestors t).flatMap fun (a, inner) =>
            a.fields.map (·.mapText (substitute (inner.andThen second)))).foldl addField
              (t.fields.map (·.mapText (substitute second))) ∧
        (c.allMethods t).map (bindMethod second) =
          ((c.ancestors t).flatMap fun (a, inner) =>
            a.methods.map (bindMethod (inner.andThen second))).foldl
              (fun ms m => addInherited m ms) (t.methods.map (bindMethod second)) := by
  refine ⟨fun text => ?_, fun c t => ⟨map_allFields c t second, map_allMethods c t second⟩⟩
  apply String.toList_injective
  rw [toList_substitute, toList_substitute, toList_substitute]
  refine replaceNames_replaceNames fun n hn => ?_
  exact replaceNames_replaceName (isName_of_mem_namesOf hn) (hboth _)

def pageType : TypeDecl :=
  { TypeDecl.named "Page" .record with
    parameters := ["T"], fields := [{ name := "items", typeText := "List<T>" }] }

def entryPage : TypeDecl :=
  { TypeDecl.named "EntryPage" .record with
    parameters := ["K"], supertypes := ["Page<Map<K, User>>"] }

def pages : Catalog :=
  Catalog.insertAll {} [pageType, entryPage]

theorem substitute_twice_pages :
    let first := [("T", "Map<K, User>")]
    let second := [("K", "int")]
    let both := [("K", "int"), ("T", "Map<int, User>")]
    (∀ k, OrderedMap.get? both k =
        ((OrderedMap.get? first k).map (substitute second)).or (OrderedMap.get? second k)) ∧
      pages.ancestors entryPage = [(pageType, first)] ∧
      substitute second (substitute first "Pair<K, T[]>") = substitute both "Pair<K, T[]>" ∧
      substitute both "Pair<K, T[]>" = "Pair<int, Map<int, User>[]>" ∧
      ((pages.allFields entryPage).map (·.mapText (substitute second))).map (·.typeText) =
        ["List<Map<int, User>>"] := by
  intro first second both
  have hvalue : substitute second "Map<K, User>" = "Map<int, User>" := by decide
  have hboth (k : String) : OrderedMap.get? both k =
      ((OrderedMap.get? first k).map (substitute second)).or (OrderedMap.get? second k) := by
    by_cases hT : k = "T"
    · subst hT
      simp [both, first, OrderedMap.get?, List.lookup_cons, hvalue]
    · have hne : (k == "T") = false := beq_false_of_ne hT
      simp [both, first, second, OrderedMap.get?, List.lookup_cons, hne]
  have hpage : pages.find? "Page<Map<K, User>>" = some pageType := by decide
  have hancestors : pages.ancestors entryPage =
      [(pageType, bind ["T"] (arguments "Page<Map<K, User>>"))] :=
    ancestors_of_top_supertype rfl hpage (by decide) (List.forall_mem_nil _)
  have hfirst : bind ["T"] (arguments "Page<Map<K, User>>") = first := by decide
  rw [hfirst] at hancestors
  obtain ⟨htexts, hmembers⟩ := substitute_twice hboth
  refine ⟨hboth, hancestors, htexts _, by decide, ?_⟩
  rw [(hmembers pages entryPage).1, hancestors]
  decide

end EndpointDocs.Catalog

import EndpointDocs.Member
import EndpointDocs.Proofs.Declaration.References

namespace EndpointDocs

namespace Catalog

variable {c : Catalog} {t : TypeDecl}

theorem mem_addField {f g : FieldDecl} {fields : List FieldDecl} (h : f ∈ addField fields g) :
    f ∈ fields ∨ f = g := by
  unfold addField at h
  split at h
  · exact .inl h
  · simpa using h

/-- The field is one of the type, or one of an ancestor with its parameters bound. -/
theorem mem_allFields {f : FieldDecl} (h : f ∈ c.allFields t) :
    f ∈ t.fields ∨ ∃ e ∈ c.ancestors t, ∃ g ∈ e.1.fields,
      f.typeText = TypeText.substitute e.2 g.typeText := by
  have hfold (l fields : List FieldDecl) (hf : f ∈ l.foldl addField fields) :
      f ∈ fields ∨ f ∈ l := by
    induction l generalizing fields with
    | nil => exact .inl hf
    | cons g l ih =>
      rcases ih (addField fields g) hf with hf | hf
      · rcases mem_addField hf with hf | rfl
        · exact .inl hf
        · exact .inr List.mem_cons_self
      · exact .inr (List.mem_cons_of_mem _ hf)
  refine (hfold _ _ h).imp_right fun hf => ?_
  obtain ⟨e, he, hf⟩ := List.mem_flatMap.mp hf
  obtain ⟨g, hg, rfl⟩ := List.mem_map.mp hf
  exact ⟨e, he, g, hg, rfl⟩

theorem mem_addInherited {m n : MethodDecl} {methods : List MethodDecl}
    (h : m ∈ addInherited n methods) : ∃ k ∈ n :: methods, m.returnType = k.returnType := by
  induction methods with
  | nil => exact ⟨m, h, rfl⟩
  | cons k methods ih =>
    unfold addInherited at h
    split at h
    · rcases List.mem_cons.mp h with rfl | h
      · exact ⟨k, by simp, rfl⟩
      · exact ⟨m, by simp [h], rfl⟩
    · rcases List.mem_cons.mp h with rfl | h
      · exact ⟨m, by simp, rfl⟩
      · obtain ⟨j, hj, heq⟩ := ih h
        refine ⟨j, ?_, heq⟩
        rcases List.mem_cons.mp hj with rfl | hj
        · exact List.mem_cons_self
        · exact List.mem_cons_of_mem _ (List.mem_cons_of_mem _ hj)

/-- The method returns what one of the type does, or one of an ancestor with its parameters
bound. -/
theorem mem_allMethods {m : MethodDecl} (h : m ∈ c.allMethods t) :
    (∃ n ∈ t.methods, m.returnType = n.returnType) ∨ ∃ e ∈ c.ancestors t, ∃ n ∈ e.1.methods,
      m.returnType = TypeText.substitute e.2 n.returnType := by
  have hfold (l methods : List MethodDecl)
      (hm : m ∈ l.foldl (fun ms n => addInherited n ms) methods) :
      ∃ n ∈ methods ++ l, m.returnType = n.returnType := by
    induction l generalizing methods with
    | nil => exact ⟨m, by simpa using hm, rfl⟩
    | cons k l ih =>
      obtain ⟨n, hn, heq⟩ := ih (addInherited k methods) hm
      rcases List.mem_append.mp hn with hn | hn
      · obtain ⟨j, hj, heq'⟩ := mem_addInherited hn
        refine ⟨j, ?_, heq.trans heq'⟩
        rcases List.mem_cons.mp hj with rfl | hj
        · simp
        · simp [hj]
      · exact ⟨n, by simp [hn], heq⟩
  obtain ⟨n, hn, heq⟩ := hfold _ _ h
  rcases List.mem_append.mp hn with hn | hn
  · exact .inl ⟨n, hn, heq⟩
  · obtain ⟨e, he, hn⟩ := List.mem_flatMap.mp hn
    obtain ⟨k, hk, rfl⟩ := List.mem_map.mp hn
    exact .inr ⟨e, he, k, hk, heq⟩

end Catalog

/-- A member is declared with a reference of its type, or with one of an ancestor of it. -/
theorem Member.mem_ofType {p : Project} {t : TypeDecl} {m : Member} (h : m ∈ ofType p t) :
    m.typeText ∈ t.references ∨ ∃ e ∈ p.catalog.ancestors t, ∃ text ∈ e.1.references,
      m.typeText = TypeText.substitute e.2 text := by
  unfold ofType at h
  split at h
  · obtain ⟨n, hn, hm⟩ := List.mem_filterMap.mp h
    have htext : m.typeText = n.returnType := by
      unfold ofMethod at hm
      split at hm
      · obtain ⟨name, _, rfl⟩ := Option.map_eq_some_iff.mp hm
        rfl
      · cases hm
    rw [htext]
    rcases Catalog.mem_allMethods hn with ⟨k, hk, heq⟩ | ⟨e, he, k, hk, heq⟩
    · exact .inl (heq ▸ TypeDecl.mem_references_of_method hk k.returnType_mem_texts)
    · exact .inr ⟨e, he, _, TypeDecl.mem_references_of_method hk k.returnType_mem_texts, heq⟩
  · obtain ⟨f, hf, hm⟩ := List.mem_filterMap.mp h
    have htext : m.typeText = f.typeText := by
      unfold ofField at hm
      split at hm
      · cases hm
      · cases hm
        rfl
    rw [htext]
    rcases Catalog.mem_allFields hf with hf | ⟨e, he, g, hg, heq⟩
    · exact .inl (TypeDecl.mem_references_of_field hf)
    · exact .inr ⟨e, he, _, TypeDecl.mem_references_of_field hg, heq⟩

end EndpointDocs

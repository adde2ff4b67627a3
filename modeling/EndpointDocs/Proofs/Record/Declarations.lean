import EndpointDocs.Proofs.Record.Reading

namespace EndpointDocs

open Document Node

variable {fs : Fields}

/-- No attribute is held twice. -/
def Annotation.IsKeyed (a : Annotation) : Prop :=
  (OrderedMap.keys a.attributes).Nodup

theorem Annotation.recalls {a : Annotation} (h : a.IsKeyed) : Recalls write read? a := by
  refine recalls_record
    [("name", some (.text a.name)),
      ("attributes", if a.attributes.isEmpty then none else some (ofMap texts a.attributes))]
    (fun _ => rfl) ?_ rfl (by decide) fun fs hfields => ?_
  · rw [write]
    cases a.attributes <;> rfl
  obtain ⟨hname, hattributes, _⟩ := by simpa only [List.forall_mem_cons] using hfields
  have hmap : Recalls (ofMap texts) (mapOf? (listOf? text?)) a.attributes :=
    recalls_map h fun e _ => recalls_list fun t _ => recalls_text t
  have hgiven : fs.getD? "attributes" (mapOf? (listOf? text?)) [] = some a.attributes := by
    refine Fields.getD?_of_holds hmap ?_ hattributes
    cases a.attributes with
    | nil => exact .inr ⟨rfl, rfl⟩
    | cons => exact .inl rfl
  simp [Fields.required?_of_holds (recalls_text _) hname, hgiven]

theorem DocTag.recalls (t : DocTag) : Recalls write read? t := by
  refine recalls_record [("name", some (.text t.name)), ("value", some (.text t.value))]
    (fun _ => rfl) rfl rfl (by decide) fun fs hfields => ?_
  obtain ⟨hname, hvalue, _⟩ := by simpa only [List.forall_mem_cons] using hfields
  simp [Fields.required?_of_holds (recalls_text _) hname,
    Fields.getD?_of_holds (recalls_text _) (.inl rfl) hvalue]

theorem DocComment.recalls (d : DocComment) : Recalls write read? d := by
  refine recalls_record [("text", some (.text d.text)), ("tags", unlessEmpty DocTag.write d.tags)]
    (fun _ => rfl) (by simp [write]) rfl (by decide) fun fs hfields => ?_
  obtain ⟨htext, htags, _⟩ := by simpa only [List.forall_mem_cons] using hfields
  simp [Fields.getD?_of_holds (recalls_text _) (.inl rfl) htext,
    Fields.list?_of_holds (fun t _ => DocTag.recalls t) htags]

/-- The comment, if that says anything. -/
def DocComment.given (d : DocComment) : Option Document :=
  if d.isEmpty then none else some d.write

@[simp] theorem given_doc (d : DocComment) (fields : List (String × Option Document)) :
    given (("doc", d.given) :: fields) = d.entry ++ given fields := by
  rw [DocComment.given, DocComment.entry]
  split <;> rfl

theorem DocComment.getD?_of_holds {d : DocComment} (h : fs.Holds "doc" d.given) :
    fs.getD? "doc" read? {} = some d := by
  refine Fields.getD?_of_holds (recalls d) ?_ h
  rw [given]
  split
  · next hempty =>
    simp only [isEmpty, Bool.and_eq_true, decide_eq_true_eq, List.isEmpty_iff] at hempty
    obtain ⟨text, tags⟩ := d
    obtain ⟨rfl, rfl⟩ := hempty
    exact .inr ⟨rfl, rfl⟩
  · exact .inl rfl

theorem Modifiers.recalls (m : Modifiers) : Recalls write read? m := by
  refine recalls_record [("private", some (.bool m.isPrivate)), ("static", some (.bool m.isStatic))]
    (fun _ => rfl) rfl rfl (by decide) fun fs hfields => ?_
  obtain ⟨hprivate, hstatic, _⟩ := by simpa only [List.forall_mem_cons] using hfields
  simp [Fields.getD?_of_holds (recalls_bool _) (.inl rfl) hprivate,
    Fields.getD?_of_holds (recalls_bool _) (.inl rfl) hstatic]

def FieldDecl.IsKeyed (f : FieldDecl) : Prop :=
  ∀ a ∈ f.annotations, a.IsKeyed

theorem FieldDecl.recalls {f : FieldDecl} (h : f.IsKeyed) : Recalls write read? f := by
  refine recalls_record
    [("name", some (.text f.name)), ("type_name", some (.text f.typeText)),
      ("modifiers", some f.modifiers.write),
      ("annotations", unlessEmpty Annotation.write f.annotations), ("doc", f.doc.given),
      ("default_value", f.initial.map .text)]
    (fun _ => rfl) (by simp [write]) rfl (by decide) fun fs hfields => ?_
  obtain ⟨hname, htype, hmodifiers, hannotations, hdoc, hinitial, _⟩ := by
    simpa only [List.forall_mem_cons] using hfields
  simp [Fields.required?_of_holds (recalls_text _) hname,
    Fields.required?_of_holds (recalls_text _) htype,
    Fields.getD?_of_holds (Modifiers.recalls _) (.inl rfl) hmodifiers,
    Fields.list?_of_holds (fun a ha => Annotation.recalls (h a ha)) hannotations,
    DocComment.getD?_of_holds hdoc,
    Fields.text?_of_holds hinitial]

def ParameterDecl.IsKeyed (p : ParameterDecl) : Prop :=
  ∀ a ∈ p.annotations, a.IsKeyed

theorem ParameterDecl.recalls {p : ParameterDecl} (h : p.IsKeyed) : Recalls write read? p := by
  refine recalls_record
    [("name", some (.text p.name)), ("type_name", some (.text p.typeText)),
      ("annotations", unlessEmpty Annotation.write p.annotations)]
    (fun _ => rfl) (by simp [write]) rfl (by decide) fun fs hfields => ?_
  obtain ⟨hname, htype, hannotations, _⟩ := by simpa only [List.forall_mem_cons] using hfields
  simp [Fields.required?_of_holds (recalls_text _) hname,
    Fields.required?_of_holds (recalls_text _) htype,
    Fields.list?_of_holds (fun a ha => Annotation.recalls (h a ha)) hannotations]

structure MethodDecl.IsKeyed (m : MethodDecl) : Prop where
  parameters : ∀ p ∈ m.parameters, p.IsKeyed
  annotations : ∀ a ∈ m.annotations, a.IsKeyed

theorem MethodDecl.recalls {m : MethodDecl} (h : m.IsKeyed) : Recalls write read? m := by
  refine recalls_record
    [("name", some (.text m.name)), ("return_type", some (.text m.returnType)),
      ("parameters", unlessEmpty ParameterDecl.write m.parameters),
      ("modifiers", some m.modifiers.write),
      ("annotations", unlessEmpty Annotation.write m.annotations), ("doc", m.doc.given),
      ("signature", some (.text m.signature))]
    (fun _ => rfl) (by simp [write]) rfl (by decide) fun fs hfields => ?_
  obtain ⟨hname, hreturn, hparameters, hmodifiers, hannotations, hdoc, hsignature, _⟩ := by
    simpa only [List.forall_mem_cons] using hfields
  simp [Fields.required?_of_holds (recalls_text _) hname,
    Fields.getD?_of_holds (recalls_text _) (.inl rfl) hreturn,
    Fields.list?_of_holds (fun p hp => ParameterDecl.recalls (h.parameters p hp)) hparameters,
    Fields.getD?_of_holds (Modifiers.recalls _) (.inl rfl) hmodifiers,
    Fields.list?_of_holds (fun a ha => Annotation.recalls (h.annotations a ha)) hannotations,
    DocComment.getD?_of_holds hdoc,
    Fields.getD?_of_holds (recalls_text _) (.inl rfl) hsignature]

theorem ConstantDecl.recalls (c : ConstantDecl) : Recalls write read? c := by
  refine recalls_record [("name", some (.text c.name)), ("description", c.description.map .text)]
    (fun _ => rfl) (by simp [write]) rfl (by decide) fun fs hfields => ?_
  obtain ⟨hname, hdescription, _⟩ := by simpa only [List.forall_mem_cons] using hfields
  simp [Fields.required?_of_holds (recalls_text _) hname,
    Fields.text?_of_holds hdescription]

theorem TypeKind.recalls (k : TypeKind) :
    Recalls (.text ∘ TypeKind.label) (oneOf? TypeKind.label TypeKind.all) k :=
  recalls_oneOf (by cases k <;> decide)

/-- No annotation of the type or of its members holds an attribute twice. -/
structure TypeDecl.IsKeyed (t : TypeDecl) : Prop where
  fields : ∀ f ∈ t.fields, f.IsKeyed
  methods : ∀ m ∈ t.methods, m.IsKeyed
  annotations : ∀ a ∈ t.annotations, a.IsKeyed

theorem TypeDecl.recalls {t : TypeDecl} (h : t.IsKeyed) : Recalls write read? t := by
  refine recalls_record
    [("name", some (.text t.name)), ("short_name", some (.text t.shortName)),
      ("kind", some (.text t.kind.label)), ("generic_params", unlessEmpty .text t.parameters),
      ("component_type", t.component.map .text), ("fields", unlessEmpty FieldDecl.write t.fields),
      ("methods", unlessEmpty MethodDecl.write t.methods),
      ("constants", unlessEmpty ConstantDecl.write t.constants),
      ("supertypes", unlessEmpty .text t.supertypes),
      ("annotations", unlessEmpty Annotation.write t.annotations), ("doc", t.doc.given)]
    (fun _ => rfl) (by simp [write]) rfl (by decide) fun fs hfields => ?_
  obtain ⟨hname, hshort, hkind, hparameters, hcomponent, hmembers, hmethods, hconstants,
    hsupertypes, hannotations, hdoc, _⟩ := by simpa only [List.forall_mem_cons] using hfields
  simp [Fields.required?_of_holds (recalls_text _) hname,
    Fields.getD?_of_holds (recalls_text _) (.inl rfl) hshort,
    Fields.getD?_of_holds (TypeKind.recalls _) (.inl rfl) hkind,
    Fields.list?_of_holds (fun s _ => recalls_text s) hparameters,
    Fields.text?_of_holds hcomponent,
    Fields.list?_of_holds (fun f hf => FieldDecl.recalls (h.fields f hf)) hmembers,
    Fields.list?_of_holds (fun m hm => MethodDecl.recalls (h.methods m hm)) hmethods,
    Fields.list?_of_holds (fun c _ => ConstantDecl.recalls c) hconstants,
    Fields.list?_of_holds (fun s _ => recalls_text s) hsupertypes,
    Fields.list?_of_holds (fun a ha => Annotation.recalls (h.annotations a ha)) hannotations,
    DocComment.getD?_of_holds hdoc]

theorem TypeDecl.recalls_all {ts : List TypeDecl} (h : ∀ t ∈ ts, t.IsKeyed) :
    Recalls writeAll readAll? ts := by
  refine recalls_record [("types", some (.list (ts.map TypeDecl.write)))]
    (fun _ => rfl) rfl rfl (by decide) fun fs hfields => ?_
  obtain ⟨htypes, _⟩ := by simpa only [List.forall_mem_cons] using hfields
  exact Fields.getD?_of_holds (recalls_list fun t ht => TypeDecl.recalls (h t ht)) (.inl rfl) htypes

end EndpointDocs

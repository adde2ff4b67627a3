import EndpointDocs.Proofs.Record.Schemas

namespace EndpointDocs

open Document Node

variable {fs : Fields}

private theorem optional?_of_text {name : String} {a : Option String}
    (h : fs.Holds name (some (ofOption .text a))) : fs.optional? name text? = some a :=
  Fields.optional?_of_ofOption (fun s _ => recalls_text s) text_ne_null h

private theorem optional?_of_bool {name : String} {a : Option Bool}
    (h : fs.Holds name (some (ofOption .bool a))) : fs.optional? name bool? = some a :=
  Fields.optional?_of_ofOption (fun b _ => recalls_bool b) (fun _ => nofun) h

theorem FieldOverride.recalls (o : FieldOverride) : Recalls write read? o := by
  refine recalls_record
    [("name", some (ofOption .text o.name)),
      ("description", some (ofOption .text o.description)),
      ("type", some (ofOption (.text ∘ DataType.label) o.dataType)),
      ("required", some (ofOption .bool o.required)),
      ("deprecated", some (ofOption .bool o.deprecated)),
      ("default_value", some (ofOption .text o.default)),
      ("example", some (ofOption .text o.sample)), ("mock", some (ofOption .text o.mock)),
      ("date_format", some (ofOption .text o.dateFormat))]
    (fun _ => rfl) rfl rfl (by decide) fun fs hfields => ?_
  obtain ⟨hname, hdescription, htype, hrequired, hdeprecated, hdefault, hsample, hmock, hdate, _⟩ :=
    by simpa only [List.forall_mem_cons] using hfields
  simp [optional?_of_text hname, optional?_of_text hdescription,
    Fields.optional?_of_ofOption (fun t _ => DataType.recalls t) (fun _ => text_ne_null _) htype,
    optional?_of_bool hrequired, optional?_of_bool hdeprecated, optional?_of_text hdefault,
    optional?_of_text hsample, optional?_of_text hmock, optional?_of_text hdate]

/-- No field is included, excluded or corrected twice. -/
structure TypeOverride.IsKeyed (o : TypeOverride) : Prop where
  includes : o.includes.Nodup
  excludes : o.excludes.Nodup
  fields : (OrderedMap.keys o.fields).Nodup

theorem TypeOverride.recalls {o : TypeOverride} (h : o.IsKeyed) : Recalls write read? o := by
  refine recalls_record
    [("includes", some (texts o.includes)), ("excludes", some (texts o.excludes)),
      ("fields", some (ofMap FieldOverride.write o.fields))]
    (fun _ => rfl) rfl rfl (by decide) fun fs hfields => ?_
  obtain ⟨hincludes, hexcludes, hmembers, _⟩ := by simpa only [List.forall_mem_cons] using hfields
  have hmap := recalls_map h.fields fun e _ => FieldOverride.recalls e.2
  simp [Fields.getD?_of_holds (recalls_textSet h.includes) (.inl rfl) hincludes,
    Fields.getD?_of_holds (recalls_textSet h.excludes) (.inl rfl) hexcludes,
    Fields.getD?_of_holds hmap (.inl rfl) hmembers]

private theorem recalls_texts (ts : List String) : Recalls texts (listOf? text?) ts :=
  recalls_list fun t _ => recalls_text t

theorem EndpointOverride.recalls (o : EndpointOverride) : Recalls write read? o := by
  refine recalls_record
    [("category", some (ofOption .text o.category)),
      ("summary", some (ofOption .text o.summary)),
      ("description", some (ofOption .text o.description)),
      ("deprecated", some (ofOption .bool o.deprecated)), ("tags", some (texts o.tags))]
    (fun _ => rfl) rfl rfl (by decide) fun fs hfields => ?_
  obtain ⟨hcategory, hsummary, hdescription, hdeprecated, htags, _⟩ := by
    simpa only [List.forall_mem_cons] using hfields
  have hlist : fs.list? "tags" text? = some o.tags :=
    Fields.getD?_of_holds (recalls_texts _) (.inl rfl) htags
  simp [optional?_of_text hcategory, optional?_of_text hsummary, optional?_of_text hdescription,
    optional?_of_bool hdeprecated, hlist]

theorem MockRule.recalls (r : MockRule) : Recalls write read? r := by
  refine recalls_record
    [("type", some (ofOption .text r.typeLabel)), ("pattern", some (.text r.pattern)),
      ("mock", some (.text r.mock))]
    (fun _ => rfl) rfl rfl (by decide) fun fs hfields => ?_
  obtain ⟨htype, hpattern, hmock, _⟩ := by simpa only [List.forall_mem_cons] using hfields
  simp [optional?_of_text htype, Fields.getD?_of_holds (recalls_text _) (.inl rfl) hpattern,
    Fields.getD?_of_holds (recalls_text _) (.inl rfl) hmock]

namespace Settings

/-- Nothing is corrected twice, and no scalar is given twice. -/
structure IsKeyed (s : Settings) : Prop where
  types : (OrderedMap.keys s.types).Nodup
  overrides : ∀ e ∈ s.types, e.2.IsKeyed
  endpoints : (OrderedMap.keys s.endpoints).Nodup
  scalars : (OrderedMap.keys s.scalars).Nodup

/-- The fields of settings as they are written. -/
def fields (s : Settings) : List (String × Option Document) :=
  [("beans", some (ofMap TypeOverride.write s.types)),
    ("apis", some (ofMap EndpointOverride.write s.endpoints)),
    ("types", some (ofMap .text s.scalars)),
    ("date_time_format_mvc", some (ofOption .text s.parameterDateFormat)),
    ("date_time_format_json", some (ofOption .text s.bodyDateFormat)),
    ("date_types", some (texts s.dateTypes)),
    ("parameter_ignore_types", some (texts s.ignoredParameterTypes)),
    ("return_unwrap_types", some (texts s.unwrappedTypes)),
    ("return_wrap_type", some (ofOption .text s.wrapperType)),
    ("mock_rules", some (.list (s.mockRules.map MockRule.write))),
    ("mock_enabled", some (.bool s.mocksEnabled)),
    ("controller_annotations", some (texts s.controllerAnnotations)),
    ("collection_types", some (texts s.collectionTypes)),
    ("map_types", some (texts s.mapTypes)), ("top_types", some (texts s.topTypes)),
    ("accessor_base_types", some (texts s.accessorBaseTypes)),
    ("required_annotations", some (texts s.requiredAnnotations))]

/-- All settings are written, so what holds where nothing is given plays no part. -/
theorem recalls {s : Settings} (h : s.IsKeyed) : Recalls write read? s := by
  refine recalls_record s.fields (fun _ => rfl) rfl rfl (by decide) fun fs hfields => ?_
  obtain ⟨htypes, hendpoints, hscalars, hparameters, hbodies, hdates, hignored, hunwrapped,
    hwrapper, hrules, hmocks, hcontrollers, hcollections, hmaps, htops, haccessors, hrequired, _⟩ :=
    by simpa only [fields, List.forall_mem_cons] using hfields
  have htext {name : String} {ts missing : List String} (ht : fs.Holds name (some (texts ts))) :
      fs.getD? name (listOf? text?) missing = some ts :=
    Fields.getD?_of_holds (recalls_texts ts) (.inl rfl) ht
  have hoption {name : String} {a missing : Option String}
      (ha : fs.Holds name (some (ofOption .text a))) :
      fs.getD? name (Node.optional? text?) missing = some a :=
    Fields.getD?_of_holds (recalls_optional (fun s _ => recalls_text s) text_ne_null) (.inl rfl) ha
  have hoverrides := recalls_map h.types fun e he => TypeOverride.recalls (h.overrides e he)
  simp [Fields.getD?_of_holds hoverrides (.inl rfl) htypes,
    Fields.getD?_of_holds (recalls_map h.endpoints fun e _ => EndpointOverride.recalls e.2)
      (.inl rfl) hendpoints,
    Fields.getD?_of_holds (recalls_map h.scalars fun e _ => recalls_text e.2) (.inl rfl) hscalars,
    hoption hparameters, hoption hbodies, htext hdates, htext hignored, htext hunwrapped,
    hoption hwrapper, Fields.getD?_of_holds (recalls_list fun r _ => MockRule.recalls r) (.inl rfl)
      hrules,
    Fields.getD?_of_holds (recalls_bool _) (.inl rfl) hmocks, htext hcontrollers,
    htext hcollections, htext hmaps, htext htops, htext haccessors, htext hrequired]

end Settings

end EndpointDocs

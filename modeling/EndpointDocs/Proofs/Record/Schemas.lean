import EndpointDocs.Proofs.Record.Declarations
import EndpointDocs.Proofs.Schema.Nodes

namespace EndpointDocs

open Document Node

theorem KnownValue.recalls (v : KnownValue) : Recalls write read? v := by
  refine recalls_record [("value", some (.text v.value)), ("description", v.description.map .text)]
    (fun _ => rfl) (by simp [write]) rfl (by decide) fun fs hfields => ?_
  obtain ⟨hvalue, hdescription, _⟩ := by simpa only [List.forall_mem_cons] using hfields
  simp [Fields.required?_of_holds (recalls_text _) hvalue,
    Fields.text?_of_holds hdescription]

theorem DataType.recalls (t : DataType) :
    Recalls (.text ∘ DataType.label) (oneOf? DataType.label DataType.all) t :=
  recalls_oneOf (by cases t <;> decide)

theorem Location.recalls (l : Location) :
    Recalls (.text ∘ Location.label) (oneOf? Location.label Location.all) l :=
  recalls_oneOf (by cases l <;> decide)

namespace Schema

variable {s : Schema} {depth : Nat}

/-- No node holds a property twice. -/
def IsKeyed (s : Schema) : Prop :=
  ∀ n, s.HasNode n → ∀ m, n.properties = some m → (OrderedMap.keys m).Nodup

/-- The fields of a schema as they are written. -/
def fields (s : Schema) : List (String × Option Document) :=
  [("name", if s.name = "" then none else some (.text s.name)),
    ("type", some (.text s.dataType.label)), ("dateFormat", s.dateFormat.map .text),
    ("description", s.description.map .text), ("in", s.location.map (.text ∘ Location.label)),
    ("required", some (.bool s.required)), ("deprecated", some (.bool s.deprecated)),
    ("example", s.sample.map .text), ("mock", s.mock.map .text),
    ("defaultValue", s.default.map .text),
    ("values", s.values.map fun vs => .list (vs.map KnownValue.write)),
    ("items", s.items.map write), ("properties", s.properties.map (ofMap write))]

theorem writeEntries_eq (entries : List (String × Schema)) :
    writeEntries entries = entries.map fun (k, s) => (k, write s) := by
  induction entries with
  | nil => rfl
  | cons e es ih => rw [writeEntries, writeEntry, ih, List.map_cons]

theorem write_eq (s : Schema) : s.write = .record (given s.fields) := by
  obtain ⟨name, _, _, _, _, _, _, _, _, _, _, items, properties⟩ := s
  have hname (fields : List (String × Option Document)) :
      given (("name", if name = "" then none else some (.text name)) :: fields) =
        (if name = "" then [] else [("name", .text name)]) ++ given fields := by
    split <;> rfl
  cases items <;> cases properties <;>
    simp [write, fields, hname, ownEntries, writeItems, writeProperties, writeEntries_eq, entry?,
      ofMap]

theorem write_ne_null (s : Schema) : s.write ≠ .null := by
  rw [write_eq]
  nofun

theorem IsKeyed.items {i : Schema} (h : s.IsKeyed) (hi : s.items = some i) : i.IsKeyed :=
  fun n hn => h n (.items hi hn)

theorem IsKeyed.property {m : OrderedMap Schema} {e : String × Schema} (h : s.IsKeyed)
    (hm : s.properties = some m) (he : e ∈ m) : e.2.IsKeyed :=
  fun n hn => h n (.property hm he hn)

theorem isKeyed_of_children (hitems : ∀ i ∈ s.items, i.IsKeyed)
    (hproperties : ∀ m ∈ s.properties, (OrderedMap.keys m).Nodup ∧ ∀ e ∈ m, e.2.IsKeyed) :
    s.IsKeyed := by
  intro n hn m hm
  cases hn with
  | self => exact (hproperties m hm).1
  | items hi hbelow => exact hitems _ hi n hbelow m hm
  | property hp he hbelow => exact (hproperties _ hp).2 _ he n hbelow m hm

private theorem ofFields?_of_holds {fs : Fields} {items : Option (Option Schema)}
    {properties : Option (Option (List (String × Schema)))}
    (hfields : ∀ f ∈ s.fields, fs.Holds f.1 f.2) (hitems : items = some s.items)
    (hproperties : properties = some s.properties) : ofFields? fs items properties = some s := by
  obtain ⟨hname, htype, hdate, hdescription, hlocation, hrequired, hdeprecated, hsample, hmock,
    hdefault, hvalues, _⟩ := by simpa only [fields, List.forall_mem_cons] using hfields
  have hgiven : fs.getD? "name" text? "" = some s.name := by
    refine Fields.getD?_of_holds (recalls_text _) ?_ hname
    split
    · next hempty => exact .inr ⟨rfl, hempty⟩
    · exact .inl rfl
  have hlist (vs : List KnownValue) :
      Recalls (fun vs => .list (vs.map KnownValue.write)) (listOf? KnownValue.read?) vs :=
    recalls_list fun v _ => KnownValue.recalls v
  simp only [ofFields?, hgiven, Fields.required?_of_holds (DataType.recalls _) htype,
    Fields.text?_of_holds hdate, Fields.text?_of_holds hdescription,
    Fields.optional?_of_holds (fun l _ => Location.recalls l) (fun _ => text_ne_null _) hlocation,
    Fields.getD?_of_holds (recalls_bool _) (.inl rfl) hrequired,
    Fields.getD?_of_holds (recalls_bool _) (.inl rfl) hdeprecated,
    Fields.text?_of_holds hsample, Fields.text?_of_holds hmock, Fields.text?_of_holds hdefault,
    Fields.optional?_of_holds (fun vs _ => hlist vs) (fun _ => nofun) hvalues, hitems, hproperties]
  cases s
  rfl

/-- The induction is on the schema; what is below its node is one level less deep. -/
theorem recalls_within (h : s.IsKeyed) (hdepth : FitsWithin depth s.write) :
    Recalls write (readWithin depth) s := by
  induction s using node_induction generalizing depth with
  | h s ihItems ihProperties =>
    rw [write_eq] at hdepth
    cases depth with
    | zero => exact absurd hdepth (not_fitsWithin_zero _)
    | succ depth =>
      have hbelow : ∀ {k d}, (k, some d) ∈ s.fields → FitsWithin depth d := fun hmem =>
        hdepth.of_mem (List.mem_filterMap.mpr ⟨_, hmem, rfl⟩)
      have hitems : ∀ i ∈ s.items, Recalls write (readWithin depth) i := by
        intro i hi
        have hwritten : ("items", some i.write) ∈ s.fields := by
          simp [fields, Option.mem_def.mp hi]
        exact ihItems i hi (h.items hi) (hbelow hwritten)
      have hproperties : ∀ m ∈ s.properties,
          Recalls (ofMap write) (mapOf? (readWithin depth)) m := by
        intro m hm
        have hwritten : ("properties", some (ofMap write m)) ∈ s.fields := by
          simp [fields, Option.mem_def.mp hm]
        refine recalls_map (h s (.self s) m hm) fun e he => ?_
        exact ihProperties m hm e he (h.property hm he) ((hbelow hwritten).value he)
      refine recalls_record s.fields (fun _ => rfl) s.write_eq rfl (by decide) fun fs hfields => ?_
      refine ofFields?_of_holds hfields ?_ ?_
      · exact Fields.optional?_of_holds hitems write_ne_null
          (hfields ("items", s.items.map write) (by simp [fields]))
      · exact Fields.optional?_of_holds hproperties (fun _ => nofun)
          (hfields ("properties", s.properties.map (ofMap write)) (by simp [fields]))

/-- A schema is read as deep as the node goes, and that is deep enough. -/
theorem recalls (h : s.IsKeyed) : Recalls write read? s :=
  fun n hn => recalls_within h ⟨n, hn, Nat.le_refl _⟩ n hn

end Schema

theorem HttpMethod.recalls (m : HttpMethod) :
    Recalls (.text ∘ HttpMethod.name) (oneOf? HttpMethod.name HttpMethod.all) m :=
  recalls_oneOf (by cases m <;> decide)

theorem BodyEncoding.recalls (e : BodyEncoding) :
    Recalls (.text ∘ BodyEncoding.label) (oneOf? BodyEncoding.label BodyEncoding.all) e :=
  recalls_oneOf (by cases e <;> decide)

/-- No node of a schema holds a property twice, and no tag is given twice. -/
structure Endpoint.IsKeyed (e : Endpoint) : Prop where
  tags : e.tags.Nodup
  parameters : ∀ s ∈ e.parameters, s.IsKeyed
  body : ∀ s ∈ e.body, s.IsKeyed
  formFields : ∀ s ∈ e.formFields, s.IsKeyed
  response : ∀ s ∈ e.response, s.IsKeyed

theorem Endpoint.recalls {e : Endpoint} (h : e.IsKeyed) : Recalls write read? e := by
  refine recalls_record
    [("method", some (.text e.method.name)), ("path", some (.text e.path)),
      ("category", e.category.map .text), ("summary", e.summary.map .text),
      ("description", e.description.map .text), ("deprecated", some (.bool e.deprecated)),
      ("tags", unlessEmpty .text e.tags), ("parameters", unlessEmpty Schema.write e.parameters),
      ("requestBodyType", e.bodyEncoding.map (.text ∘ BodyEncoding.label)),
      ("requestBody", e.body.map Schema.write),
      ("requestBodyForm", unlessEmpty Schema.write e.formFields),
      ("responses", e.response.map Schema.write)]
    (fun _ => rfl) (by simp [write]) rfl (by decide) fun fs hfields => ?_
  obtain ⟨hmethod, hpath, hcategory, hsummary, hdescription, hdeprecated, htags, hparameters,
    hencoding, hbody, hform, hresponse, _⟩ := by simpa only [List.forall_mem_cons] using hfields
  have hset : fs.getD? "tags" textSet? [] = some e.tags := by
    refine Fields.getD?_of_holds (recalls_textSet h.tags) ?_ htags
    cases e.tags with
    | nil => exact .inr ⟨rfl, rfl⟩
    | cons => exact .inl rfl
  simp [Fields.required?_of_holds (HttpMethod.recalls _) hmethod,
    Fields.required?_of_holds (recalls_text _) hpath,
    Fields.text?_of_holds hcategory,
    Fields.text?_of_holds hsummary,
    Fields.text?_of_holds hdescription,
    Fields.getD?_of_holds (recalls_bool _) (.inl rfl) hdeprecated, hset,
    Fields.list?_of_holds (fun s hs => Schema.recalls (h.parameters s hs)) hparameters,
    Fields.optional?_of_holds (fun e _ => BodyEncoding.recalls e) (fun _ => text_ne_null _)
      hencoding,
    Fields.optional?_of_holds (fun s hs => Schema.recalls (h.body s hs)) Schema.write_ne_null hbody,
    Fields.list?_of_holds (fun s hs => Schema.recalls (h.formFields s hs)) hform,
    Fields.optional?_of_holds (fun s hs => Schema.recalls (h.response s hs)) Schema.write_ne_null
      hresponse]

end EndpointDocs

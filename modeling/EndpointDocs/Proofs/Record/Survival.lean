import EndpointDocs.Loading
import EndpointDocs.Proofs.Chars.Cutting
import EndpointDocs.Proofs.Json.Rereading
import EndpointDocs.Proofs.Record.Settings

namespace EndpointDocs

open Node

/-- What is read of the characters that are printed, with no text made of them in between. -/
def Yaml.reread (d : Document) : Option Node :=
  let cs := print 0 d
  let tokens :=
    if cs.all isAllowed then
      let cs := (['\ufeff'].isPrefixOf? cs).getD cs
      Scan.run { cursor := { rest := unifyBreaks cs } } (cs.length + 1)
    else none
  tokens.bind fun ts => (Compose.document? ts).bind fun t =>
    some (t.expand (Tree.targets t.parts.reverse depth))

theorem Yaml.parse_render (d : Document) : parse (render d) = reread d := by
  rw [parse, render, Token.scan?, String.toList_ofList]
  rfl

namespace Format

/-- Whether the text of a document is read for what the document says. -/
def Rereads (f : Format) (d : Document) : Prop :=
  ∃ n, f.parse (f.render d) = some n ∧ tells d n = true

theorem yaml_rereads_iff {d : Document} :
    yaml.Rereads d ↔ (Yaml.reread d).any (tells d) = true := by
  rw [← Yaml.parse_render, Option.any_eq_true]
  rfl

instance (d : Document) : Decidable (yaml.Rereads d) :=
  decidable_of_iff _ yaml_rereads_iff.symm

private theorem rereads_of_yaml {f : Format} {d : Document} (h : f = .yaml → f.Rereads d) :
    f.Rereads d := by
  cases f with
  | yaml => exact h rfl
  | json => exact Json.parse_render d

private theorem Rereads.bind_read {α : Type} {write : α → Document} {read : Node → Option α} {a : α}
    {f : Format} (h : f.Rereads (write a)) (ha : Recalls write read a) :
    (f.parse (f.render (write a))).bind read = some a := by
  obtain ⟨n, hn, htells⟩ := h
  rw [hn, Option.bind_some]
  exact ha n htells

end Format

private theorem Yaml.prefix_print {indent : Nat} {k : String} {d : Document}
    {es : List (String × Document)} (hkey : isSimpleKey k = true)
    (hplain : simpleKey k.toList = k.toList) :
    k.toList <+: print indent (.record ((k, d) :: es)) := by
  have hentry : printEntry indent (k, d) = simpleKey k.toList ++ ':' :: printValue indent d :=
    if_pos hkey
  -- By `rfl`, as the equations of `print` take long to make.
  have hprint : print indent (.record ((k, d) :: es)) =
      printEntry indent (k, d) ++ printEntries indent es := rfl
  rw [hprint, hentry, hplain, List.append_assoc]
  exact List.prefix_append _ _

/-- Settings start with the name of their first field, so they are not taken for a blank text. -/
theorem Settings.trim_render_ne_empty (s : Settings) : Text.trim (Yaml.render s.write) ≠ "" := by
  intro hempty
  have hprefix : "beans".toList <+: Yaml.print 0 s.write :=
    Yaml.prefix_print (by decide) (by decide)
  have hmem : 'b' ∈ Yaml.print 0 s.write := hprefix.subset (by decide)
  apply Chars.trim_ne_nil hmem (by decide)
  rw [← String.toList_ofList (l := Yaml.print 0 s.write), ← Text.toList_trim, ← Yaml.render, hempty]
  rfl

theorem Settings.parse?_render {f : Format} {s : Settings} (h : f.Rereads s.write)
    (hkeyed : s.IsKeyed) : parse? f (f.render s.write) = some s := by
  have hblank : f = .yaml → Text.trim (f.render s.write) ≠ "" := by
    rintro rfl
    exact s.trim_render_ne_empty
  rw [parse?, if_neg (by simpa using hblank)]
  exact h.bind_read (recalls hkeyed)

namespace Format

/-- What is printed of a record is read as that record, in each format. -/
theorem records_survive (f : Format) :
    (∀ e : Endpoint, e.IsKeyed → (f = .yaml → f.Rereads e.write) →
      (f.parse (f.render e.write)).bind Endpoint.read? = some e) ∧
    (∀ ts : List TypeDecl, (∀ t ∈ ts, t.IsKeyed) →
      (f = .yaml → f.Rereads (TypeDecl.writeAll ts)) →
      (f.parse (f.render (TypeDecl.writeAll ts))).bind TypeDecl.readAll? = some ts) ∧
    ∀ s : Settings, s.IsKeyed → (f = .yaml → f.Rereads s.write) →
      Settings.parse? f (f.render s.write) = some s := by
  refine ⟨fun e hkeyed hyaml => ?_, fun ts hkeyed hyaml => ?_, fun s hkeyed hyaml => ?_⟩
  · exact (rereads_of_yaml hyaml).bind_read (Endpoint.recalls hkeyed)
  · exact (rereads_of_yaml hyaml).bind_read (TypeDecl.recalls_all hkeyed)
  · exact Settings.parse?_render (rereads_of_yaml hyaml) hkeyed

/-- An array of objects, which have a property each. -/
def pages : Schema :=
  let no : Schema := { name := "no", dataType := .integer }
  { name := "pages", dataType := .array, items := some { properties := some [("no", no)] } }

/-- An endpoint that answers with an object that holds pages. -/
def booksEndpoint : Endpoint :=
  { path := "/books", tags := ["true"], response := some { properties := some [("pages", pages)] } }

/-- A dump of one enumeration. -/
def colorDump : List TypeDecl :=
  [{ name := "demo.Color", shortName := "Color", kind := .enumeration
     constants := [{ name := "RED", description := some "# red" }]
     annotations := [{ name := "Doc", attributes := [("value", ["a: b", ""])] }] }]

/-- Settings with a correction of a field, and with fewer lists than hold without any settings. -/
def fewSettings : Settings :=
  { types := [("A", { excludes := ["b"], fields := [("c", { required := some true })] })]
    scalars := [("D", "string")], parameterDateFormat := none, dateTypes := []
    ignoredParameterTypes := [], unwrappedTypes := [], mockRules := [{ pattern := "id" }]
    controllerAnnotations := [], collectionTypes := [], mapTypes := [], topTypes := []
    requiredAnnotations := [] }

private theorem booksEndpoint_isKeyed : booksEndpoint.IsKeyed where
  tags := by decide
  parameters := List.forall_mem_nil _
  body := by simp [booksEndpoint]
  formFields := List.forall_mem_nil _
  response := by
    have hobject {k : String} {s : Schema} (hs : s.IsKeyed) :
        Schema.IsKeyed { properties := some [(k, s)] } := by
      refine Schema.isKeyed_of_children (by simp) ?_
      rintro _ ⟨⟩
      exact ⟨by simp [OrderedMap.keys], List.forall_mem_singleton.mpr hs⟩
    have hpages : pages.IsKeyed := by
      refine Schema.isKeyed_of_children ?_ (by simp [pages])
      rintro _ ⟨⟩
      exact hobject (Schema.isKeyed_of_children (by simp) (by simp))
    rintro _ ⟨⟩
    exact hobject hpages

private theorem colorDump_isKeyed : ∀ t ∈ colorDump, t.IsKeyed := by
  refine List.forall_mem_singleton.mpr ⟨List.forall_mem_nil _, List.forall_mem_nil _, ?_⟩
  refine List.forall_mem_singleton.mpr ?_
  show List.Nodup _
  decide

private theorem fewSettings_isKeyed : fewSettings.IsKeyed where
  types := by decide
  overrides := List.forall_mem_singleton.mpr ⟨by decide, by decide, by decide⟩
  endpoints := by decide
  scalars := by decide

/-- Records with what YAML has signs for: a truth value, a comment and an entry as texts. -/
theorem records_survive_books :
    booksEndpoint.IsKeyed ∧ (∀ t ∈ colorDump, t.IsKeyed) ∧ fewSettings.IsKeyed ∧
      yaml.Rereads booksEndpoint.write ∧ yaml.Rereads (TypeDecl.writeAll colorDump) ∧
      yaml.Rereads fewSettings.write ∧
      (yaml.parse (yaml.render booksEndpoint.write)).bind Endpoint.read? = some booksEndpoint ∧
      (yaml.parse (yaml.render (TypeDecl.writeAll colorDump))).bind TypeDecl.readAll? =
        some colorDump ∧
      Settings.parse? yaml (yaml.render fewSettings.write) = some fewSettings := by
  have hbooks : yaml.Rereads booksEndpoint.write := by decide +kernel
  have hcolors : yaml.Rereads (TypeDecl.writeAll colorDump) := by decide +kernel
  have hfew : yaml.Rereads fewSettings.write := by decide +kernel
  obtain ⟨hendpoints, hdumps, hloaded⟩ := records_survive .yaml
  exact ⟨booksEndpoint_isKeyed, colorDump_isKeyed, fewSettings_isKeyed, hbooks, hcolors, hfew,
    hendpoints _ booksEndpoint_isKeyed fun _ => hbooks, hdumps _ colorDump_isKeyed fun _ => hcolors,
    hloaded _ fewSettings_isKeyed fun _ => hfew⟩

end Format

end EndpointDocs

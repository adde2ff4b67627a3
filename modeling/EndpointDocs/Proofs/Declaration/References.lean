import EndpointDocs.Declaration

namespace EndpointDocs

def FieldDecl.mapText (g : String → String) (f : FieldDecl) : FieldDecl :=
  { f with typeText := g f.typeText }

def ParameterDecl.mapText (g : String → String) (p : ParameterDecl) : ParameterDecl :=
  { p with typeText := g p.typeText }

theorem map_of_fixed {α : Type} {f : α → α} {l : List α} (h : ∀ a ∈ l, f a = a) : l.map f = l :=
  (List.map_congr_left h).trans (List.map_id' l)

namespace MethodDecl

def texts (m : MethodDecl) : List String :=
  m.returnType :: m.parameters.map (·.typeText)

def mapTexts (g : String → String) (m : MethodDecl) : MethodDecl :=
  { m with
    returnType := g m.returnType
    parameters := m.parameters.map (·.mapText g) }

variable {m n : MethodDecl} {g h : String → String}

theorem returnType_mem_texts (m : MethodDecl) : m.returnType ∈ m.texts :=
  List.mem_cons_self

theorem texts_mapTexts : (m.mapTexts g).texts = m.texts.map g := by
  simp [texts, mapTexts, ParameterDecl.mapText, Function.comp_def]

theorem mapTexts_mapTexts : (m.mapTexts g).mapTexts h = m.mapTexts fun text => h (g text) := by
  simp [mapTexts, ParameterDecl.mapText, Function.comp_def]

theorem mapTexts_congr (hg : ∀ text ∈ m.texts, g text = h text) : m.mapTexts g = m.mapTexts h := by
  have hparameters : m.parameters.map (·.mapText g) = m.parameters.map (·.mapText h) := by
    apply List.map_congr_left
    intro p hp
    rw [ParameterDecl.mapText, hg _ (List.mem_cons_of_mem _ (List.mem_map_of_mem hp)),
      ParameterDecl.mapText]
  rw [mapTexts, mapTexts, hparameters, hg _ m.returnType_mem_texts]

theorem mapTexts_id : m.mapTexts (fun text => text) = m := by
  have hparameters : m.parameters.map (·.mapText fun text => text) = m.parameters :=
    List.map_id' m.parameters
  rw [mapTexts, hparameters]

theorem overrides_mapTexts : (m.mapTexts g).overrides (n.mapTexts g) = m.overrides n := by
  have hlength (k : MethodDecl) : (k.mapTexts g).parameters.length = k.parameters.length :=
    List.length_map _
  have hname (k : MethodDecl) : (k.mapTexts g).name = k.name := rfl
  simp only [overrides, hlength, hname]

end MethodDecl

namespace TypeDecl

/-- The references that the parameters of the type are bound in. -/
def references (t : TypeDecl) : List String :=
  t.fields.map (·.typeText) ++ t.methods.flatMap (·.texts) ++ t.supertypes

def mapReferences (g : String → String) (t : TypeDecl) : TypeDecl :=
  { t with
    fields := t.fields.map (·.mapText g)
    methods := t.methods.map (·.mapTexts g)
    supertypes := t.supertypes.map g }

variable {t : TypeDecl} {text : String} {g h : String → String}

theorem mem_references_of_field {f : FieldDecl} (hf : f ∈ t.fields) : f.typeText ∈ t.references :=
  List.mem_append_left _ (List.mem_append_left _ (List.mem_map_of_mem hf))

theorem mem_references_of_method {m : MethodDecl} (hm : m ∈ t.methods) (htext : text ∈ m.texts) :
    text ∈ t.references :=
  List.mem_append_left _ (List.mem_append_right _ (List.mem_flatMap.mpr ⟨m, hm, htext⟩))

theorem mem_references_of_supertype (htext : text ∈ t.supertypes) : text ∈ t.references :=
  List.mem_append_right _ htext

theorem references_mapReferences : (t.mapReferences g).references = t.references.map g := by
  simp [references, mapReferences, List.map_flatMap, List.flatMap_map, FieldDecl.mapText,
    MethodDecl.texts_mapTexts, Function.comp_def]

/-- What every reference stays under leaves the type as it is. -/
theorem mapReferences_of_fixed (hg : ∀ text ∈ t.references, g text = text) :
    t.mapReferences g = t := by
  have hfields : t.fields.map (·.mapText g) = t.fields := by
    apply map_of_fixed
    intro f hf
    rw [FieldDecl.mapText, hg _ (mem_references_of_field hf)]
  have hmethods : t.methods.map (·.mapTexts g) = t.methods := by
    apply map_of_fixed
    intro m hm
    have hcongr := MethodDecl.mapTexts_congr fun text htext =>
      hg text (mem_references_of_method hm htext)
    rw [hcongr, MethodDecl.mapTexts_id]
  have hsupertypes : t.supertypes.map g = t.supertypes := by
    apply map_of_fixed
    exact fun text htext => hg text (mem_references_of_supertype htext)
  rw [mapReferences, hfields, hmethods, hsupertypes]

theorem mapReferences_mapReferences :
    (t.mapReferences g).mapReferences h = t.mapReferences fun text => h (g text) := by
  simp [mapReferences, FieldDecl.mapText, MethodDecl.mapTexts_mapTexts, Function.comp_def]

end TypeDecl

end EndpointDocs

import EndpointDocs.Proofs.Catalog.Ancestry
import EndpointDocs.Proofs.Member.Texts

namespace EndpointDocs

open TypeText

namespace Catalog

variable {g : String → String}

theorem addField_mapText (fields : List FieldDecl) (f : FieldDecl) :
    addField (fields.map (·.mapText g)) (f.mapText g) = (addField fields f).map (·.mapText g) := by
  have hany : ((fields.map (·.mapText g)).any fun h => h.name = (f.mapText g).name) =
      fields.any fun h => h.name = f.name := List.any_map
  unfold addField
  rw [hany]
  split <;> simp

private theorem mergeParameters_mapText (ps qs : List ParameterDecl) :
    mergeParameters (ps.map (·.mapText g)) (qs.map (·.mapText g)) =
      (mergeParameters ps qs).map (·.mapText g) := by
  induction ps generalizing qs with
  | nil => rfl
  | cons p ps ih =>
    cases qs with
    | nil => rfl
    | cons q qs =>
      simp only [List.map_cons, mergeParameters, ih]
      rfl

private theorem mergeInherited_mapTexts (m n : MethodDecl) :
    mergeInherited (m.mapTexts g) (n.mapTexts g) = (mergeInherited m n).mapTexts g := by
  simp only [mergeInherited, MethodDecl.mapTexts, mergeParameters_mapText]

private theorem addInherited_mapTexts (n : MethodDecl) (methods : List MethodDecl) :
    addInherited (n.mapTexts g) (methods.map (·.mapTexts g)) =
      (addInherited n methods).map (·.mapTexts g) := by
  induction methods with
  | nil => rfl
  | cons m methods ih =>
    simp only [List.map_cons, addInherited, MethodDecl.overrides_mapTexts]
    split
    · rw [mergeInherited_mapTexts, List.map_cons]
    · rw [ih, List.map_cons]

theorem foldl_addInherited_mapTexts (is ms : List MethodDecl) :
    (is.map (·.mapTexts g)).foldl (fun ms i => addInherited i ms) (ms.map (·.mapTexts g)) =
      (is.foldl (fun ms i => addInherited i ms) ms).map (·.mapTexts g) := by
  rw [List.foldl_map]
  exact List.foldl_hom _ (fun ms i => addInherited_mapTexts i ms)

end Catalog

namespace Project

open Catalog

variable {q : Project} {x y text : String} {t : TypeDecl} {e : TypeDecl × Bindings}

/-- What an ancestor is declared with can be renamed before or after its parameters are bound. -/
theorem substitute_rename_of_ancestor (h : q.StandsFor x y) (he : e ∈ q.catalog.ancestors t)
    (htext : text ∈ e.1.references) :
    substitute (renameBindings y x e.2) (rename y x text) = rename y x (substitute e.2 text) := by
  obtain ⟨w, _, hfind, hbind⟩ := mem_ancestors he
  refine (rename_substitute h.fresh.1 h.parameter fun k hk => ?_).symm
  rw [hbind] at hk
  exact TypeDecl.keepsApart_of_unmixed (h.unmixed _ (mem_of_find? hfind)) htext k (mem_keys_bind hk)

private theorem allFields_rename (h : q.StandsFor x y)
    (hwritten : ∀ w, Written q.catalog t w → q.Legible x y w) (ht : t ∈ q.catalog.types) :
    (q.mapTypes (·.renameParameter y x)).catalog.allFields (t.renameParameter y x) =
      (q.catalog.allFields t).map (·.mapText (rename y x)) := by
  have hinherited : ((q.mapTypes (·.renameParameter y x)).catalog.ancestors
        (t.renameParameter y x)).flatMap (fun e => e.1.fields.map (·.mapText (substitute e.2))) =
      ((q.catalog.ancestors t).flatMap fun e => e.1.fields.map (·.mapText (substitute e.2))).map
        (·.mapText (rename y x)) := by
    rw [ancestors_rename h hwritten ht, List.flatMap_map, List.map_flatMap]
    apply List.flatMap_congr
    intro e he
    have hfields : (e.1.renameParameter y x).fields =
        e.1.fields.map (·.mapText (rename y x)) := rfl
    rw [hfields, List.map_map, List.map_map]
    apply List.map_congr_left
    intro f hf
    have hcommute := substitute_rename_of_ancestor h he (TypeDecl.mem_references_of_field hf)
    simp [FieldDecl.mapText, hcommute]
  have hfields : (t.renameParameter y x).fields = t.fields.map (·.mapText (rename y x)) := rfl
  change (List.flatMap (fun e : TypeDecl × Bindings =>
    e.1.fields.map (·.mapText (substitute e.2))) _).foldl addField _ = _
  rw [hinherited, hfields, List.foldl_map]
  exact List.foldl_hom _ (fun fields f => addField_mapText fields f)

private theorem allMethods_rename (h : q.StandsFor x y)
    (hwritten : ∀ w, Written q.catalog t w → q.Legible x y w) (ht : t ∈ q.catalog.types) :
    (q.mapTypes (·.renameParameter y x)).catalog.allMethods (t.renameParameter y x) =
      (q.catalog.allMethods t).map (·.mapTexts (rename y x)) := by
  have hinherited : ((q.mapTypes (·.renameParameter y x)).catalog.ancestors
        (t.renameParameter y x)).flatMap (fun e => e.1.methods.map (bindMethod e.2)) =
      ((q.catalog.ancestors t).flatMap fun e => e.1.methods.map (bindMethod e.2)).map
        (·.mapTexts (rename y x)) := by
    rw [ancestors_rename h hwritten ht, List.flatMap_map, List.map_flatMap]
    apply List.flatMap_congr
    intro e he
    have hmethods : (e.1.renameParameter y x).methods =
        e.1.methods.map (·.mapTexts (rename y x)) := rfl
    rw [hmethods, List.map_map, List.map_map]
    apply List.map_congr_left
    intro m hm
    change (m.mapTexts (rename y x)).mapTexts (substitute (renameBindings y x e.2)) =
      (m.mapTexts (substitute e.2)).mapTexts (rename y x)
    rw [MethodDecl.mapTexts_mapTexts, MethodDecl.mapTexts_mapTexts]
    apply MethodDecl.mapTexts_congr
    intro text htext
    exact substitute_rename_of_ancestor h he (TypeDecl.mem_references_of_method hm htext)
  have hmethods : (t.renameParameter y x).methods = t.methods.map (·.mapTexts (rename y x)) := rfl
  change (List.flatMap (fun e : TypeDecl × Bindings => e.1.methods.map (bindMethod e.2)) _).foldl
    (fun ms m => addInherited m ms) _ = _
  rw [hinherited, hmethods]
  exact foldl_addInherited_mapTexts _ _

/-- Every reference that a type is found above another one by can be looked up. -/
def LegibleHierarchy (q : Project) (x y : String) : Prop :=
  ∀ t ∈ q.catalog.types, ∀ w, Written q.catalog t w → q.Legible x y w

theorem inheritsAny_rename (h : q.StandsFor x y) (hw : q.LegibleHierarchy x y)
    (ht : t ∈ q.catalog.types) {bases : List String} (hbases : ∀ b ∈ bases, b ∈ q.knownNames) :
    (q.mapTypes (·.renameParameter y x)).inheritsAny (t.renameParameter y x) bases =
      q.inheritsAny t bases := by
  have hinherits : ∀ base ∈ bases, (q.mapTypes (·.renameParameter y x)).catalog.inherits
      (t.renameParameter y x) base = q.catalog.inherits t base :=
    fun base hbase =>
      inherits_rename h (fun u hu s hs => hw u hu s (.own hs)) ht (hbases base hbase)
  rw [inheritsAny, inheritsAny, Bool.eq_iff_iff, List.any_eq_true, List.any_eq_true]
  exact exists_congr fun base => and_congr_right fun hbase => by rw [hinherits base hbase]

end Project

namespace Member

def mapText (g : String → String) (m : Member) : Member :=
  { m with typeText := g m.typeText }

variable {g : String → String} {q : Project} {x y : String} {t : TypeDecl} {m : Member}

private theorem ofField_mapText (f : FieldDecl) :
    ofField (f.mapText g) = (ofField f).map (·.mapText g) := by
  cases hstatic : f.modifiers.isStatic <;> simp [ofField, FieldDecl.mapText, hstatic, mapText]

private theorem ofMethod_mapTexts {m : MethodDecl}
    (h : isVoid (g m.returnType) = isVoid m.returnType) :
    ofMethod (m.mapTexts g) = (ofMethod m).map (·.mapText g) := by
  have hvoid : (m.mapTexts g).returnsVoid = m.returnsVoid := h
  have hnone : (m.mapTexts g).parameters.isEmpty = m.parameters.isEmpty := List.isEmpty_map
  have hname : accessorName? (m.mapTexts g).name = accessorName? m.name := rfl
  have hstatic : (m.mapTexts g).modifiers = m.modifiers := rfl
  unfold ofMethod
  rw [hvoid, hnone, hname, hstatic]
  split
  · rw [Option.map_map]
    rfl
  · rfl

theorem ofType_rename (h : q.StandsFor x y) (hw : q.LegibleHierarchy x y)
    (ht : t ∈ q.catalog.types) (hreturned : x ∈ voidNames → hasAccessors q t = true →
      ∀ m ∈ q.catalog.allMethods t, y ∉ names (rawName m.returnType)) :
    ofType (q.mapTypes (·.renameParameter y x)) (t.renameParameter y x) =
      (ofType q t).map (·.mapText (rename y x)) := by
  have hbases : ∀ b ∈ q.settings.accessorBaseTypes, b ∈ q.knownNames :=
    fun b hb => Project.mem_knownNames (by simp [Project.nameLists]) hb
  have haccessors : hasAccessors (q.mapTypes (·.renameParameter y x)) (t.renameParameter y x) =
      hasAccessors q t :=
    congrArg (decide (t.kind = .interface) || ·) (Project.inheritsAny_rename h hw ht hbases)
  unfold ofType
  rw [haccessors, Project.allMethods_rename h (hw t ht) ht, Project.allFields_rename h (hw t ht) ht,
    List.filterMap_map, List.filterMap_map]
  split
  · next haccessors =>
    rw [List.map_filterMap]
    apply List.filterMap_congr
    intro m hm
    apply ofMethod_mapTexts
    apply Project.isVoid_rename h
    by_cases hx : x ∈ voidNames
    · exact .inr (hreturned hx haccessors m hm)
    · exact .inl hx
  · rw [List.map_filterMap]
    exact List.filterMap_congr fun f _ => ofField_mapText f

end Member

end EndpointDocs

import EndpointDocs.Catalog.Library
import EndpointDocs.Proofs.Catalog.Search
import EndpointDocs.Route

namespace EndpointDocs

namespace Annotations

variable {as bs : Annotations} {b : Annotation} {name : String}

theorem find?_append (as bs : Annotations) (name : String) :
    find? (as ++ bs) name = (find? as name).or (find? bs name) :=
  List.find?_append

theorem is_of_find? (h : find? as name = some b) : b.is name = true := by
  have hgoes := List.find?_some h
  exact hgoes

theorem not_is_of_has (hb : has as b.name = true) (h : find? as name = none) :
    b.is name = false := by
  obtain ⟨a, ha⟩ := Option.isSome_iff_exists.mp hb
  have hsame : a.shortName = b.shortName := of_decide_eq_true (is_of_find? ha)
  have hnot : ¬ a.is name = true := List.find?_eq_none.mp h a (List.mem_of_find?_eq_some ha)
  unfold Annotation.is at hnot
  rw [hsame] at hnot
  exact Bool.eq_false_iff.mpr hnot

/-- A merge answers like the two lists, one behind the other. -/
theorem find?_mergeMissing (as bs : Annotations) (name : String) :
    find? (mergeMissing as bs) name = find? (as ++ bs) name := by
  induction bs generalizing as with
  | nil => rw [List.append_nil]; rfl
  | cons b bs ih =>
    have hstep : mergeMissing as (b :: bs) =
        mergeMissing (if has as b.name then as else as ++ [b]) bs := rfl
    rw [hstep, ih]
    cases hb : has as b.name with
    | false => rw [if_neg (by simp), List.append_assoc, List.singleton_append]
    | true =>
      rw [if_pos rfl, find?_append, find?_append]
      cases h : find? as name with
      | some a => rw [Option.some_or, Option.some_or]
      | none =>
        have hnot := not_is_of_has hb h
        have hcons : find? (b :: bs) name = find? bs name :=
          List.find?_cons_of_neg (by simp [hnot])
        rw [hcons]

theorem findAny?_cons (as : Annotations) (name : String) (names : List String) :
    findAny? as (name :: names) = (find? as name).or (findAny? as names) := by
  rw [findAny?, List.findSome?_cons]
  cases find? as name <;> rfl

/-- The names that count before all those that find something. -/
def earlier (as : Annotations) (names : List String) : List String :=
  names.takeWhile fun n => !has as n

/-- Further annotations are asked only by the names that count before those of the first ones. -/
theorem findAny?_append (as bs : Annotations) (names : List String) :
    findAny? (as ++ bs) names = (findAny? bs (earlier as names)).or (findAny? as names) := by
  induction names with
  | nil => rfl
  | cons n names ih =>
    have hearlier : earlier as (n :: names) =
        if has as n then [] else n :: earlier as names := by
      rw [earlier, List.takeWhile_cons]
      cases has as n <;> rfl
    rw [findAny?_cons, findAny?_cons, find?_append, ih, hearlier, has]
    cases find? as n with
    | some a => rfl
    | none =>
      rw [Option.isSome_none, if_neg Bool.false_ne_true, findAny?_cons, Option.none_or,
        Option.none_or, Option.or_assoc]

end Annotations

namespace Catalog

variable {c : Catalog} {t : TypeDecl} {m i e x : MethodDecl} {ms : List MethodDecl}

theorem overrides_iff :
    m.overrides i = true ↔ m.name = i.name ∧ m.parameters.length = i.parameters.length := by
  simp [MethodDecl.overrides]

theorem overrides_comm (m i : MethodDecl) : m.overrides i = i.overrides m := by
  rw [Bool.eq_iff_iff, overrides_iff, overrides_iff]
  exact and_congr eq_comm eq_comm

private theorem overrides_congr (h : x.overrides i = true) (m : MethodDecl) :
    x.overrides m = i.overrides m := by
  obtain ⟨hname, hlength⟩ := overrides_iff.mp h
  rw [Bool.eq_iff_iff, overrides_iff, overrides_iff, hname, hlength]

theorem length_mergeParameters (ps qs : List ParameterDecl) :
    (mergeParameters ps qs).length = ps.length := by
  fun_induction mergeParameters ps qs with
  | case1 p ps q qs ih => rw [List.length_cons, ih, List.length_cons]
  | case2 ps qs _ => rfl

theorem overrides_mergeInherited (e i m : MethodDecl) :
    (mergeInherited e i).overrides m = e.overrides m := by
  rw [Bool.eq_iff_iff, overrides_iff, overrides_iff, mergeInherited, length_mergeParameters]

/-- The first method called so is the one that takes over from an inherited method. -/
theorem find?_addInherited (h : ms.find? (·.overrides m) = some e) (i : MethodDecl) :
    (addInherited i ms).find? (·.overrides m) =
      some (if i.overrides m then mergeInherited e i else e) := by
  induction ms with
  | nil => cases h
  | cons x ms ih =>
    rw [addInherited]
    cases hx : x.overrides m with
    | true =>
      rw [List.find?_cons, hx] at h
      cases h
      rw [overrides_congr hx, overrides_comm]
      split
      · rw [List.find?_cons, overrides_mergeInherited, hx]
      · rw [List.find?_cons, hx]
    | false =>
      rw [List.find?_cons, hx] at h
      split
      · next hi =>
        -- Another method takes over, so `i` is not called like `m`.
        have hnot : i.overrides m = false := overrides_congr hi m ▸ hx
        rw [List.find?_cons, overrides_mergeInherited, hx, hnot]
        exact h
      · rw [List.find?_cons, hx]
        exact ih h

private theorem find?_foldl_addInherited (h : ms.find? (·.overrides m) = some e)
    (is : List MethodDecl) : (is.foldl (fun ms i => addInherited i ms) ms).find? (·.overrides m) =
      some ((is.filter (·.overrides m)).foldl mergeInherited e) := by
  induction is generalizing ms e with
  | nil => exact h
  | cons i is ih =>
    rw [List.foldl_cons, ih (find?_addInherited h i), List.filter_cons]
    split <;> rfl

/-- The methods above `t` that a method of `t` called like `m` overrides, nearest first. -/
def overridden (c : Catalog) (t : TypeDecl) (m : MethodDecl) : List MethodDecl :=
  (c.ancestors t).flatMap fun (a, _) => a.methods.filter (·.overrides m)

def inheritedAnnotations (c : Catalog) (t : TypeDecl) (m : MethodDecl) : Annotations :=
  (c.overridden t m).flatMap (·.annotations)

private theorem findAny?_foldl_mergeInherited (e : MethodDecl) (is : List MethodDecl)
    (names : List String) :
    Annotations.findAny? (is.foldl mergeInherited e).annotations names =
      Annotations.findAny? (e.annotations ++ is.flatMap (·.annotations)) names := by
  induction is generalizing e with
  | nil => rw [List.flatMap_nil, List.append_nil]; rfl
  | cons i is ih =>
    have hown : (mergeInherited e i).annotations =
        Annotations.mergeMissing e.annotations i.annotations := rfl
    rw [List.foldl_cons, ih, hown, List.flatMap_cons, ← List.append_assoc]
    have hfind : Annotations.find? (Annotations.mergeMissing e.annotations i.annotations ++
        is.flatMap (·.annotations)) =
        Annotations.find? (e.annotations ++ i.annotations ++ is.flatMap (·.annotations)) := by
      funext name
      rw [Annotations.find?_append, Annotations.find?_append, Annotations.find?_mergeMissing]
    rw [Annotations.findAny?, Annotations.findAny?, hfind]

private theorem annotations_bindMethod (entries : List (TypeDecl × TypeText.Bindings))
    (m : MethodDecl) : ((entries.flatMap fun (a, b) => a.methods.map (bindMethod b)).filter
        (·.overrides m)).flatMap (·.annotations) =
      (entries.flatMap fun (a, _) => a.methods.filter (·.overrides m)).flatMap (·.annotations) := by
  have hsame (b : TypeText.Bindings) :
      (fun i : MethodDecl => i.overrides m) ∘ bindMethod b = fun i => i.overrides m := by
    funext i
    rw [Function.comp_apply, Bool.eq_iff_iff, overrides_iff, overrides_iff, bindMethod,
      List.length_map]
  induction entries with
  | nil => rfl
  | cons e entries ih =>
    rw [List.flatMap_cons, List.flatMap_cons, List.filter_append, List.flatMap_append,
      List.flatMap_append, ih, List.filter_map, hsame, List.flatMap_map]
    rfl

/-- The entry of the first method called like `m` answers from its own annotations and from those
of the methods that it overrides. -/
theorem exists_entry (h : t.methods.find? (·.overrides m) = some m) :
    ∃ entry, (c.allMethods t).find? (·.overrides m) = some entry ∧
      ∀ names, Annotations.findAny? entry.annotations names =
        Annotations.findAny? (m.annotations ++ c.inheritedAnnotations t m) names := by
  refine ⟨_, find?_foldl_addInherited h _, fun names => ?_⟩
  rw [findAny?_foldl_mergeInherited, annotations_bindMethod, inheritedAnnotations, overridden]

end Catalog

namespace Route

open Annotations

variable {c : Catalog} {t : TypeDecl} {m : MethodDecl}

private theorem findAny?_singleton {as : Annotations} {names : List String} {a : Annotation}
    (h : findAny? as names = some a) (hnames : names ⊆ annotationNames) :
    findAny? [a] annotationNames = some a := by
  obtain ⟨n, hn, hfound⟩ := List.exists_of_findSome?_eq_some h
  have hsome : (findAny? [a] annotationNames).isSome = true := by
    rw [findAny?, List.findSome?_isSome_iff]
    exact ⟨n, hnames hn, by simp [find?, is_of_find? hfound]⟩
  obtain ⟨a', ha'⟩ := Option.isSome_iff_exists.mp hsome
  obtain ⟨n', _, hfound'⟩ := List.exists_of_findSome?_eq_some ha'
  rw [ha', List.mem_singleton.mp (List.mem_of_find?_eq_some hfound')]

/-- The first method of a type that is called so keeps its own route among all methods exactly if
the overridden methods have no mapping annotation that counts before its own ones, or one that maps
to the same. -/
theorem ofAnnotations?_allMethods_eq_iff (h : t.methods.find? (·.overrides m) = some m) :
    ∃ entry, (c.allMethods t).find? (·.overrides m) = some entry ∧
      (ofAnnotations? entry.annotations = ofAnnotations? m.annotations ↔
        ∀ a, findAny? (c.inheritedAnnotations t m) (earlier m.annotations annotationNames) =
          some a → ofAnnotations? [a] = ofAnnotations? m.annotations) := by
  obtain ⟨entry, hentry, hanswer⟩ := Catalog.exists_entry (c := c) h
  refine ⟨entry, hentry, ?_⟩
  have hsub : earlier m.annotations annotationNames ⊆ annotationNames :=
    (List.takeWhile_prefix _).subset
  have hroute := hanswer annotationNames
  rw [findAny?_append] at hroute
  cases hfirst : findAny? (c.inheritedAnnotations t m) (earlier m.annotations annotationNames) with
  | none =>
    rw [hfirst, Option.none_or] at hroute
    simp [ofAnnotations?, hroute]
  | some a =>
    have halone : ofAnnotations? entry.annotations = ofAnnotations? [a] := by
      rw [hfirst, Option.some_or] at hroute
      rw [ofAnnotations?, ofAnnotations?, hroute, findAny?_singleton hfirst hsub]
    simp [halone]

def mappedTo (name path : String) : MethodDecl :=
  { name := "find", annotations := [{ name, attributes := [("value", [path])] }] }

def mappedInterface (inherited : MethodDecl) : TypeDecl :=
  { TypeDecl.named "Base" .interface with methods := [inherited] }

def mappedClass (own : MethodDecl) : TypeDecl :=
  { TypeDecl.named "Ctl" .record with supertypes := ["Base"], methods := [own] }

def mappedCatalog (own inherited : MethodDecl) : Catalog :=
  Catalog.insertAll {} [mappedInterface inherited, mappedClass own]

private theorem ancestors_mappedClass (own inherited : MethodDecl) :
    (mappedCatalog own inherited).ancestors (mappedClass own) =
      [(mappedInterface inherited, [])] := by
  have hbase : (mappedCatalog own inherited).find? "Base" = some (mappedInterface inherited) := rfl
  have hnames : (mappedInterface inherited).name ≠ (mappedClass own).name := by
    simp [mappedInterface, mappedClass, TypeDecl.named]
  exact Catalog.ancestors_of_top_supertype rfl hbase hnames (List.forall_mem_nil _)

/-- A get mapping above does not count before a method's own request mapping. -/
theorem ofAnnotations?_allMethods_own :
    let own := mappedTo "RequestMapping" "/own"
    let inherited := mappedTo "GetMapping" "/inherited"
    (mappedClass own).methods.find? (·.overrides own) = some own ∧
      ∃ entry, ((mappedCatalog own inherited).allMethods (mappedClass own)).find?
          (·.overrides own) = some entry ∧
        ofAnnotations? entry.annotations = ofAnnotations? own.annotations := by
  intro own inherited
  have hown : (mappedClass own).methods.find? (·.overrides own) = some own := by decide
  obtain ⟨entry, hentry, hiff⟩ :=
    ofAnnotations?_allMethods_eq_iff (c := mappedCatalog own inherited) hown
  refine ⟨hown, entry, hentry, hiff.mpr fun a ha => ?_⟩
  have hnone : earlier own.annotations annotationNames = [] := by decide
  rw [hnone] at ha
  cases ha

/-- A request mapping above counts before a method's own get mapping. -/
theorem ofAnnotations?_allMethods_inherited :
    let own := mappedTo "GetMapping" "/own"
    let inherited := mappedTo "RequestMapping" "/inherited"
    (mappedClass own).methods.find? (·.overrides own) = some own ∧
      ofAnnotations? own.annotations = some ⟨.get, ["/own"]⟩ ∧
      ∃ entry, ((mappedCatalog own inherited).allMethods (mappedClass own)).find?
          (·.overrides own) = some entry ∧
        ofAnnotations? entry.annotations = some ⟨.get, ["/inherited"]⟩ := by
  intro own inherited
  have hown : (mappedClass own).methods.find? (·.overrides own) = some own := by decide
  obtain ⟨entry, hentry, hanswer⟩ :=
    Catalog.exists_entry (c := mappedCatalog own inherited) hown
  refine ⟨hown, by decide, entry, hentry, ?_⟩
  rw [ofAnnotations?, hanswer, Catalog.inheritedAnnotations, Catalog.overridden,
    ancestors_mappedClass]
  decide

end Route

end EndpointDocs

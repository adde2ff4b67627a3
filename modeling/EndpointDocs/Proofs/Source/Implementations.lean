import EndpointDocs.Proofs.Catalog.Order
import EndpointDocs.Proofs.Source.Visiting
import EndpointDocs.Proofs.TypeText.Balance

namespace EndpointDocs.Source

open TypeText

@[simp] theorem qualifiedName_nil (name : String) : qualifiedName [] name = name := by
  simp [qualifiedName, Text.join]

private theorem colon_mem_qualifiedName {modules : List String} (h : modules ≠ []) (name : String) :
    ':' ∈ (qualifiedName modules name).toList := by
  obtain ⟨outer, inner, rfl⟩ := List.exists_cons_of_ne_nil h
  obtain ⟨next, rest, hrest⟩ := List.exists_cons_of_ne_nil (List.append_ne_nil_of_right_ne_nil inner
    (List.cons_ne_nil name []))
  simp [qualifiedName, Text.join, hrest, List.intercalate_cons_cons]

/-- The name of an item: a word that is no path. -/
structure IsItemName (name : String) : Prop where
  nonempty : name ≠ ""
  word : IsWord name
  single : ':' ∉ name.toList
  own : name ∉ relativeNames

instance (name : String) : Decidable (IsItemName name) :=
  decidable_of_iff (name ≠ "" ∧ IsWord name ∧ ':' ∉ name.toList ∧ name ∉ relativeNames)
    ⟨fun h => ⟨h.1, h.2.1, h.2.2.1, h.2.2.2⟩, fun h => ⟨h.1, h.2, h.3, h.4⟩⟩

/-- Only what no module stands around can have the name of an item for its full name. -/
theorem qualifiedName_eq_iff {modules : List String} {name other : String} (h : ':' ∉ name.toList) :
    qualifiedName modules other = name ↔ modules = [] ∧ other = name := by
  constructor
  · intro hname
    have hroot : modules = [] := by
      by_contra hmodules
      exact h (hname ▸ colon_mem_qualifiedName hmodules other)
    subst hroot
    exact ⟨rfl, (qualifiedName_nil other).symm.trans hname⟩
  · rintro ⟨rfl, rfl⟩
    exact qualifiedName_nil other

/-- A name goes by itself, whatever arguments it has, unless it is that of a wrapper, which stands
for what it holds. -/
theorem rawName_text_path {name : String} {arguments : Arguments} (hname : IsItemName name)
    (hwrapper : name ∈ wrappers → arguments.texts = []) (isQualified isAbsolute : Bool) :
    rawName (TypeRef.path isQualified isAbsolute [.mk name arguments]).text = name := by
  have hplain : '<' ∉ name.toList := fun h => (hname.word _ h).1.2.1 rfl
  have htrimmed : Text.trim name = name := by
    rw [Text.trim, hname.word.isArgument.trimmed.trim, String.ofList_toList]
  have hpath : ∀ as, pathText [name] as =
      if as.isEmpty then name else name ++ "<" ++ Text.join ", " as ++ ">" := by
    simp [pathText, hname.own, Text.join]
  have htext : (TypeRef.path isQualified isAbsolute [.mk name arguments]).text =
      typePathText [name] arguments.texts := by
    rw [TypeRef.text, lastArguments, Segment.argumentTexts]
    rfl
  rw [htext]
  cases has : arguments.texts with
  | nil => simpa [typePathText, hpath, rawName_of_not_mem hplain] using htrimmed
  | cons a as =>
    have hown : name ∉ wrappers := fun h => List.cons_ne_nil a as (has.symm.trans (hwrapper h))
    simpa [typePathText, hown, hpath, rawName_brackets hplain] using htrimmed

/-- Every type is entered once, under its full name. -/
structure Registered (types : OrderedMap TypeDecl) : Prop where
  nodup : types.keys.Nodup
  name_eq : ∀ e ∈ types, e.2.name = e.1

variable {types others : OrderedMap TypeDecl} {t u : TypeDecl} {e : Extension} {home name : String}
  {ps : List Placed}

theorem Registered.put (h : Registered types) (t : TypeDecl) : Registered (types.put t.name t) where
  nodup := OrderedMap.nodup_keys_put h.nodup _ _
  name_eq _ he := by
    rcases OrderedMap.mem_put he with rfl | he
    · rfl
    · exact h.name_eq _ he

private theorem registered_types (ps : List Placed) : Registered (Placed.types ps) where
  nodup := OrderedMap.nodup_keys_putAll (m := []) List.nodup_nil _
  name_eq _ he := by
    obtain ⟨t, -, rfl⟩ := List.mem_map.mp (OrderedMap.mem_of_mem_ofEntries he)
    rfl

theorem Registered.name_of_get? (h : Registered types) (hget : types.get? name = some t) :
    t.name = name :=
  h.name_eq _ (OrderedMap.mem_of_get? hget)

theorem Registered.nodup_names (h : Registered types) : (types.values.map (·.name)).Nodup := by
  have hnames : types.values.map (·.name) = types.keys := by
    rw [OrderedMap.values, OrderedMap.keys, List.map_map]
    exact List.map_congr_left fun e he => h.name_eq e he
  exact hnames ▸ h.nodup

theorem Registered.get?_of_mem (h : Registered types) (ht : t ∈ types.values) :
    types.get? t.name = some t := by
  obtain ⟨⟨key, t⟩, hmem, rfl⟩ := List.mem_map.mp ht
  rw [h.name_eq _ hmem]
  exact OrderedMap.get?_of_mem h.nodup hmem

private theorem Registered.byName?_values (h : Registered types) (name : String) :
    ({ types := types.values } : Catalog).byName? name = types.get? name := by
  apply Option.ext
  intro t
  rw [Catalog.byName?_eq_some_iff h.nodup_names]
  constructor
  · rintro ⟨ht, rfl⟩
    exact h.get?_of_mem ht
  · intro hget
    exact ⟨List.mem_map_of_mem (OrderedMap.mem_of_get? hget), h.name_of_get? hget⟩

private theorem Registered.byName?_ofProject (h : Registered types) (name : String) :
    (Catalog.ofProject types.values).byName? name =
      ((types.get? name).map TypeDecl.normalized).or (Catalog.withLibrary.byName? name) := by
  rw [Catalog.ofProject, Catalog.byName?_insertAll_of_nodup _ h.nodup_names, h.byName?_values]

namespace Declared

/-- One step of `finish`. -/
def attach (types : OrderedMap TypeDecl) (e : Extension) : OrderedMap TypeDecl :=
  match target? types e with
  | some t => types.put t.name (extend t e)
  | none => types

theorem finish_eq (d : Declared) : d.finish = (d.extensions.foldl attach d.types).values :=
  rfl

private theorem get?_of_target? (h : Registered types) (htarget : target? types e = some t) :
    types.get? t.name = some t := by
  rcases Option.or_eq_some_iff.mp htarget with hget | ⟨-, hrest⟩
  · rwa [h.name_of_get? hget]
  rcases Option.or_eq_some_iff.mp hrest with hget | ⟨-, hfind⟩
  · rwa [h.name_of_get? hget]
  · exact h.get?_of_mem (List.mem_of_find?_eq_some hfind)

/-- Nothing becomes of types and their order but that one of them has more members. -/
theorem attach_registered (h : Registered types) (e : Extension) :
    Registered (attach types e) ∧ (attach types e).keys = types.keys := by
  unfold attach
  split
  · next t htarget =>
    have hkey : t.name ∈ types.keys := OrderedMap.mem_keys_of_get? (get?_of_target? h htarget)
    refine ⟨h.put (extend t e), ?_⟩
    rw [OrderedMap.keys_put, if_pos hkey]
  · exact ⟨h, rfl⟩

private theorem foldl_attach_registered (h : Registered types) (es : List Extension) :
    Registered (es.foldl attach types) ∧ (es.foldl attach types).keys = types.keys := by
  induction es generalizing types with
  | nil => exact ⟨h, rfl⟩
  | cons e es ih =>
    obtain ⟨hstep, hkeys⟩ := attach_registered h e
    obtain ⟨hrun, hrest⟩ := ih hstep
    exact ⟨hrun, hrest.trans hkeys⟩

/-- The type has gained the methods in one piece, and the trait if it had not got it. -/
structure Gains (e : Extension) (t u : TypeDecl) : Prop where
  methods : ∃ before after, t.methods = before ++ after ∧ u.methods = before ++ e.methods ++ after
  supertypes : ∀ s, s ∈ u.supertypes ↔ s ∈ t.supertypes ∨ e.supertype = some s
  rest : u = { t with methods := u.methods, supertypes := u.supertypes }

private theorem mem_supertypes_extend (t : TypeDecl) (e : Extension) (s : String) :
    s ∈ (extend t e).supertypes ↔ s ∈ t.supertypes ∨ e.supertype = some s := by
  have hadded : s ∈ e.supertype.toList.filter (· ∉ t.supertypes) ↔
      e.supertype = some s ∧ s ∉ t.supertypes := by
    simp
  rw [extend, List.mem_append, hadded]
  tauto

private theorem gains_extend (t : TypeDecl) (e : Extension) : Gains e t (extend t e) where
  methods := ⟨t.methods, [], (List.append_nil _).symm, (List.append_nil _).symm⟩
  supertypes := mem_supertypes_extend t e
  rest := rfl

/-- What is implemented later comes behind it. -/
theorem Gains.extend (h : Gains e t u) (later : Extension) :
    Gains e (extend t later) (extend u later) where
  methods := by
    obtain ⟨before, after, ht, hu⟩ := h.methods
    refine ⟨before, after ++ later.methods, ?_, ?_⟩
    · rw [Declared.extend, ht, List.append_assoc]
    · rw [Declared.extend, hu, List.append_assoc]
  supertypes s := by
    rw [mem_supertypes_extend, mem_supertypes_extend, h.supertypes]
    tauto
  rest := by
    rw [h.rest]
    rfl

theorem Gains.normalized (h : Gains e t u) : Gains e t.normalized u.normalized := by
  obtain ⟨hmethods, hsupertypes, hrest⟩ := h
  generalize u.methods = methods, u.supertypes = supertypes at hmethods hsupertypes hrest
  subst hrest
  unfold TypeDecl.normalized
  split
  · exact ⟨hmethods, hsupertypes, rfl⟩
  · exact ⟨hmethods, hsupertypes, rfl⟩

/-- The type of this name has gained, any other one is the same. -/
inductive Follows (e : Extension) (home : String) : TypeDecl → TypeDecl → Prop
  | gained {t u : TypeDecl} (name : t.name = home) (gains : Gains e t u) : Follows e home t u
  | same {t : TypeDecl} (name : t.name ≠ home) : Follows e home t t

theorem Follows.names_eq (h : Follows e home t u) :
    u.name = t.name ∧ u.shortName = t.shortName := by
  cases h with
  | gained _ gains =>
    rw [gains.rest]
    exact ⟨rfl, rfl⟩
  | same _ => exact ⟨rfl, rfl⟩

theorem Follows.extend (h : Follows e home t u) (later : Extension) :
    Follows e home (extend t later) (extend u later) := by
  cases h with
  | gained name gains => exact .gained name (gains.extend later)
  | same name => exact .same name

private theorem rel_or {α : Type} {R : α → α → Prop} {a b a' b' : Option α} (h : Option.Rel R a b)
    (h' : Option.Rel R a' b') : Option.Rel R (a.or a') (b.or b') := by
  cases h with
  | some hvalue => exact .some hvalue
  | none => exact h'

/-- The target is the same type in both, as its members do not count for it. -/
theorem target?_follows (h : OrderedMap.EntryWise (Follows e home) types others)
    (later : Extension) :
    Option.Rel (Follows e home) (target? types later) (target? others later) := by
  refine rel_or (h.get? _) (rel_or (h.get? _) (h.find?_values fun v w hvw => ?_))
  rw [hvw.names_eq.2]

private theorem attach_follows (h : OrderedMap.EntryWise (Follows e home) types others)
    (later : Extension) :
    OrderedMap.EntryWise (Follows e home) (attach types later) (attach others later) := by
  have htargets := target?_follows h later
  unfold attach
  generalize target? types later = left, target? others later = right at htargets
  cases htargets with
  | none => exact h
  | @some t u htu =>
    change OrderedMap.EntryWise _ (types.put t.name (extend t later))
      (others.put u.name (extend u later))
    rw [htu.names_eq.1]
    exact h.put (htu.extend later) t.name

private theorem foldl_attach_follows (h : OrderedMap.EntryWise (Follows e home) types others)
    (later : List Extension) :
    OrderedMap.EntryWise (Follows e home) (later.foldl attach types)
      (later.foldl attach others) := by
  induction later generalizing types others with
  | nil => exact h
  | cons e' later ih => exact ih (attach_follows h e')

/-- Whatever is attached before and after it, one implementation changes its target alone. -/
theorem foldl_attach_with (h : Registered types) (before after : List Extension)
    (htarget : target? (before.foldl attach types) e = some t) :
    OrderedMap.EntryWise (Follows e t.name) ((before ++ after).foldl attach types)
      ((before ++ e :: after).foldl attach types) := by
  have hbefore : Registered (before.foldl attach types) := (foldl_attach_registered h before).1
  -- Before the implementation the types are the same, and after it both take the same steps.
  have hstep : OrderedMap.EntryWise (Follows e t.name) (before.foldl attach types)
      (attach (before.foldl attach types) e) := by
    rw [attach, htarget]
    refine OrderedMap.entryWise_put hbefore.nodup (get?_of_target? hbefore htarget)
      (.gained rfl (gains_extend t e)) fun u hu hne => .same ?_
    rwa [hbefore.name_eq u hu]
  rw [List.foldl_append, List.foldl_append, List.foldl_cons]
  exact foldl_attach_follows hstep after

end Declared

open Declared

/-- What the second catalog has beyond the first: the type of this name has gained, and all others
are the same. -/
structure Attached (e : Extension) (home : String) (c d : Catalog) : Prop where
  gains : ∃ t u, c.byName? home = some t ∧ d.byName? home = some u ∧ Gains e t u
  others : ∀ name ≠ home, d.byName? name = c.byName? name

private theorem attached_ofProject (h : Registered types) (hothers : Registered others)
    (hfollows : OrderedMap.EntryWise (Follows e home) types others) (hhome : home ∈ types.keys) :
    Attached e home (Catalog.ofProject types.values) (Catalog.ofProject others.values) where
  gains := by
    have hsame := hfollows.get? home
    obtain ⟨t, ht⟩ := Option.ne_none_iff_exists'.mp (OrderedMap.get?_ne_none hhome)
    rw [h.byName?_ofProject, hothers.byName?_ofProject]
    rw [ht] at hsame ⊢
    generalize others.get? home = found at hsame
    cases hsame with
    | @some _ u htu =>
      cases htu with
      | gained _ gains => exact ⟨t.normalized, u.normalized, rfl, rfl, gains.normalized⟩
      | same hname => exact absurd (h.name_of_get? ht) hname
  others name hne := by
    have hsame := hfollows.get? name
    have hname : ∀ t, types.get? name = some t → t.name ≠ home := fun t ht =>
      (h.name_of_get? ht).symm ▸ hne
    rw [h.byName?_ofProject, hothers.byName?_ofProject]
    generalize types.get? name = left, others.get? name = right at hsame hname
    cases hsame with
    | none => rfl
    | @some t _ htu =>
      cases htu with
      | gained hhome _ => exact absurd hhome (hname t rfl)
      | same _ => rfl

/-- One implementation among others is attached to its target. -/
theorem attached_of_target? {before after : List Extension} (h : Registered types)
    (htarget : target? (before.foldl attach types) e = some t) :
    Attached e t.name (Catalog.ofProject ((before ++ after).foldl attach types).values)
      (Catalog.ofProject ((before ++ e :: after).foldl attach types).values) := by
  obtain ⟨hwithout, hkeys⟩ := foldl_attach_registered h (before ++ after)
  obtain ⟨hbefore, hkeysBefore⟩ := foldl_attach_registered h before
  refine attached_ofProject hwithout (foldl_attach_registered h _).1
    (foldl_attach_with h before after htarget) ?_
  rw [hkeys, ← hkeysBefore]
  exact OrderedMap.mem_keys_of_get? (get?_of_target? hbefore htarget)

/-- The modules around an item that declares a type, and the name that it has in them. -/
def Placed.declared? : Placed → Option (List String × String)
  | (modules, .record s) => some (modules, s.name)
  | (modules, .enumeration e) => some (modules, e.name)
  | (modules, .interface t) => some (modules, t.name)
  | (_, .module _ _) | (_, .implementation _) => none

/-- The names of the types that the files declare, each with the modules around it. -/
def declaredNames (files : List File) : List (List String × String) :=
  (placedIn files).filterMap Placed.declared?

private theorem Placed.map_name_type? (p : Placed) :
    p.type?.map (·.name) = p.declared?.map fun d => qualifiedName d.1 d.2 := by
  obtain ⟨modules, i⟩ := p
  cases i <;> rfl

theorem mem_keys_types : name ∈ (Placed.types ps).keys ↔
    ∃ d ∈ ps.filterMap Placed.declared?, qualifiedName d.1 d.2 = name := by
  have hnames : (ps.filterMap Placed.type?).map (·.name) =
      (ps.filterMap Placed.declared?).map fun d => qualifiedName d.1 d.2 := by
    rw [List.map_filterMap, List.map_filterMap]
    exact List.filterMap_congr fun p _ => p.map_name_type?
  rw [Placed.types, OrderedMap.ofEntries, OrderedMap.mem_keys_putAll, List.map_map,
    ← List.mem_map, ← hnames]
  exact ⟨fun h => h.resolve_left List.not_mem_nil, .inr⟩

theorem catalogOf_eq (files : List File) :
    catalogOf files = Catalog.ofProject ((Placed.extensions (placedIn files)).foldl attach
      (Placed.types (placedIn files))).values := by
  rw [catalogOf, declarations_eq, finish_eq]

/-- The full name of the type that an implementation is for which stands in the modules and gives
the type by the name alone: one that stands in no module goes first. -/
def homeOf (files : List File) (modules : List String) (name : String) : String :=
  if ([], name) ∈ declaredNames files then name else qualifiedName modules name

private theorem exists_target? {files : List File} {modules : List String} (h : Registered types)
    (hkeys : types.keys = (Placed.types (placedIn files)).keys) (hname : ':' ∉ name.toList)
    (hdeclared : (modules, name) ∈ declaredNames files) (hmodules : e.modules = modules)
    (htarget : e.target = name) :
    ∃ t, target? types e = some t ∧ t.name = homeOf files modules name := by
  -- A key without colons is the name of a type that no module stands around.
  have hroot : name ∈ types.keys ↔ ([], name) ∈ declaredNames files := by
    rw [hkeys, mem_keys_types]
    constructor
    · rintro ⟨⟨inner, other⟩, hmem, heq⟩
      obtain ⟨rfl, rfl⟩ := (qualifiedName_eq_iff hname).mp heq
      exact hmem
    · exact fun hmem => ⟨_, hmem, qualifiedName_nil name⟩
  have hqualified : qualifiedName modules name ∈ types.keys := by
    rw [hkeys, mem_keys_types]
    exact ⟨_, hdeclared, rfl⟩
  rw [target?, homeOf, hmodules, htarget]
  by_cases hfirst : ([], name) ∈ declaredNames files
  · obtain ⟨t, ht⟩ := Option.ne_none_iff_exists'.mp (OrderedMap.get?_ne_none (hroot.mpr hfirst))
    refine ⟨t, by rw [ht, Option.some_or], ?_⟩
    rw [if_pos hfirst, h.name_of_get? ht]
  · have hnone : types.get? name = none := by
      by_contra hsome
      obtain ⟨t, ht⟩ := Option.ne_none_iff_exists'.mp hsome
      exact hfirst (hroot.mp (OrderedMap.mem_keys_of_get? ht))
    obtain ⟨t, ht⟩ := Option.ne_none_iff_exists'.mp (OrderedMap.get?_ne_none hqualified)
    refine ⟨t, by rw [hnone, Option.none_or, ht, Option.some_or], ?_⟩
    rw [if_neg hfirst, h.name_of_get? ht]

theorem homeOf_eq_iff {files : List File} {modules : List String} (hname : ':' ∉ name.toList) :
    homeOf files modules name = qualifiedName modules name ↔
      modules = [] ∨ ([], name) ∉ declaredNames files := by
  rw [homeOf]
  split
  · next hfirst => rw [eq_comm, qualifiedName_eq_iff hname]; simp [hfirst]
  · next hfirst => simp [hfirst]

/-- An implementation for a type that is declared in the same modules and given by its name alone:
without it one type has neither its methods nor its trait, and all other types are the same. This
is the type in the same modules unless one of this name stands in no module. -/
theorem implementation_attached {files others : List File} {before after : List Placed}
    {modules : List String} {name : String} {i : ImplItem} {arguments : Arguments}
    (hfiles : placedIn files = before ++ (modules, .implementation i) :: after)
    (hothers : placedIn others = before ++ after)
    (hname : IsItemName name) (htype : i.type = .path false false [.mk name arguments])
    (hwrapper : name ∈ wrappers → arguments.texts = [])
    (hdeclared : (modules, name) ∈ declaredNames files) :
    (homeOf files modules name = qualifiedName modules name ↔
      modules = [] ∨ ([], name) ∉ declaredNames files) ∧
    Attached (i.declare modules) (homeOf files modules name) (catalogOf others)
      (catalogOf files) := by
  refine ⟨homeOf_eq_iff hname.single, ?_⟩
  have htarget : (i.declare modules).target = name := by
    rw [ImplItem.declare, htype, rawName_text_path hname hwrapper]
  have hextension : Placed.extension? (modules, .implementation i) =
      some (i.declare modules) := by
    have hnamed : (i.declare modules).target ≠ "" := htarget ▸ hname.nonempty
    rw [Placed.extension?_implementation, if_neg hnamed]
  have hwith : Placed.extensions (placedIn files) =
      Placed.extensions before ++ i.declare modules :: Placed.extensions after := by
    rw [hfiles, Placed.extensions_append]
    exact congrArg _ (List.filterMap_cons_some hextension)
  have hwithout : Placed.extensions (placedIn others) =
      Placed.extensions before ++ Placed.extensions after := by
    rw [hothers, Placed.extensions_append]
  have htypes : Placed.types (placedIn others) = Placed.types (placedIn files) := by
    have hnone : Placed.type? (modules, .implementation i) = none := rfl
    rw [hothers, hfiles, Placed.types, Placed.types, List.filterMap_append, List.filterMap_append,
      List.filterMap_cons_none hnone]
  have hregistered : Registered (Placed.types (placedIn files)) := registered_types _
  obtain ⟨hbefore, hkeys⟩ := foldl_attach_registered hregistered (Placed.extensions before)
  obtain ⟨t, ht, hhome⟩ := exists_target? hbefore hkeys hname.single hdeclared rfl htarget
  rw [catalogOf_eq, catalogOf_eq, hwith, hwithout, htypes, ← hhome]
  exact attached_of_target? hregistered ht

/-- Two modules with a type of one name, and what stands behind the type in the first. -/
def twoUsers (rest : List Item) : List File :=
  [{ items := [.module "api" (unitStruct "User" :: rest), .module "shop" [unitStruct "User"]]
     count := 2 }]

theorem implementation_attached_user :
    homeOf (twoUsers [.implementation (implFor "User" ["size"])]) ["api"] "User" = "api::User" ∧
    Attached ((implFor "User" ["size"]).declare ["api"]) "api::User" (catalogOf (twoUsers []))
      (catalogOf (twoUsers [.implementation (implFor "User" ["size"])])) := by
  have hfiles : placedIn (twoUsers [.implementation (implFor "User" ["size"])]) =
      [(["api"], unitStruct "User")] ++
        (["api"], .implementation (implFor "User" ["size"])) :: [(["shop"], unitStruct "User")] :=
    rfl
  have hothers : placedIn (twoUsers []) =
      [(["api"], unitStruct "User")] ++ [(["shop"], unitStruct "User")] := rfl
  obtain ⟨-, hattached⟩ :=
    implementation_attached hfiles hothers (by decide) rfl (by decide) (by decide)
  have hhome : homeOf (twoUsers [.implementation (implFor "User" ["size"])]) ["api"] "User" =
      "api::User" := by decide
  rw [hhome] at hattached
  exact ⟨hhome, hattached⟩

/-- A type outside of all modules and one of the same name in a module, for which something is
implemented there. -/
def shadowedUser : List File :=
  [{ items := [unitStruct "User",
      .module "api" [unitStruct "User", .implementation (implFor "User" ["size"])]]
     count := 2 }]

theorem shadowedUser_methods :
    (["api"], "User") ∈ declaredNames shadowedUser ∧
    ((catalogOf shadowedUser).byName? "api::User").map (·.methods.map (·.name)) = some [] ∧
    ((catalogOf shadowedUser).byName? "User").map (·.methods.map (·.name)) = some ["size"] := by
  decide

end EndpointDocs.Source

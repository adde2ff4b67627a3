import EndpointDocs.Proofs.OrderedMap
import EndpointDocs.Source.Declare

namespace EndpointDocs.Source

/-- An item and the modules that it stands in, the outermost first. -/
abbrev Placed :=
  List String × Item

namespace Item

/-- Whether the item declares a type. -/
def isType : Item → Bool
  | .record _ | .enumeration _ | .interface _ => true
  | .module _ _ | .implementation _ => false

def isImplementation : Item → Bool
  | .implementation _ => true
  | _ => false

end Item

mutual

/-- The items other than modules that an item brings in, in the order of the source. -/
def placedItem (modules : List String) : Item → List Placed
  | .module name items => placedItems (modules ++ [name]) items
  | .record s => [(modules, .record s)]
  | .enumeration e => [(modules, .enumeration e)]
  | .interface t => [(modules, .interface t)]
  | .implementation i => [(modules, .implementation i)]

def placedItems (modules : List String) : List Item → List Placed
  | [] => []
  | i :: is => placedItem modules i ++ placedItems modules is

end

/-- The items of all files, one file after the other. -/
def placedIn (files : List File) : List Placed :=
  files.flatMap fun f => placedItems [] f.items

namespace Placed

def type? : Placed → Option TypeDecl
  | (modules, .record s) => some (s.declare modules)
  | (modules, .enumeration e) => some (e.declare modules)
  | (modules, .interface t) => some (t.declare modules)
  | (_, .module _ _) | (_, .implementation _) => none

/-- What an item implements for a type, unless the type has no name. -/
def extension? : Placed → Option Extension
  | (modules, .implementation i) =>
    let e := i.declare modules
    if e.target = "" then none else some e
  | _ => none

/-- The types under their full names. -/
def types (ps : List Placed) : OrderedMap TypeDecl :=
  OrderedMap.ofEntries ((ps.filterMap type?).map fun t => (t.name, t))

def extensions (ps : List Placed) : List Extension :=
  ps.filterMap extension?

theorem extensions_append (ps qs : List Placed) :
    extensions (ps ++ qs) = extensions ps ++ extensions qs :=
  List.filterMap_append

theorem extension?_implementation (modules : List String) (i : ImplItem) :
    extension? (modules, .implementation i) =
      if (i.declare modules).target = "" then none else some (i.declare modules) :=
  rfl

private theorem type?_of_not_isType {p : Placed} (h : p.2.isType = false) : p.type? = none := by
  obtain ⟨modules, i⟩ := p
  cases i with
  | record _ | enumeration _ | interface _ => cases h
  | module _ _ | implementation _ => rfl

private theorem extension?_of_not_isImplementation {p : Placed} (h : p.2.isImplementation = false) :
    p.extension? = none := by
  obtain ⟨modules, i⟩ := p
  cases i with
  | implementation _ => cases h
  | record _ | enumeration _ | interface _ | module _ _ => rfl

end Placed

namespace Declared

variable {modules : List String} {d : Declared}

/-- Adds placed items, whatever modules they stand in. -/
def addPlaced (d : Declared) (ps : List Placed) : Declared where
  types := d.types.putAll ((ps.filterMap Placed.type?).map fun t => (t.name, t))
  extensions := d.extensions ++ Placed.extensions ps

theorem addPlaced_append (d : Declared) (ps qs : List Placed) :
    d.addPlaced (ps ++ qs) = (d.addPlaced ps).addPlaced qs := by
  simp [addPlaced, Placed.extensions_append, OrderedMap.putAll_append]

theorem addPlaced_nil (d : Declared) : d.addPlaced [] = d := by
  simp [addPlaced, Placed.extensions, OrderedMap.putAll]

theorem addType_eq {p : Placed} {t : TypeDecl} (h : p.type? = some t)
    (hnone : p.extension? = none) : d.addType t = d.addPlaced [p] := by
  simp [addType, addPlaced, Placed.extensions, OrderedMap.putAll, h, hnone]

theorem addExtension_eq (d : Declared) (i : ImplItem) :
    d.addExtension (i.declare modules) = d.addPlaced [(modules, .implementation i)] := by
  have htype : Placed.type? (modules, .implementation i) = none := rfl
  rw [addPlaced, Placed.extensions, List.filterMap_cons_none htype, List.filterMap_cons,
    Placed.extension?_implementation, addExtension]
  by_cases h : (i.declare modules).target = "" <;> simp [OrderedMap.putAll, h]

mutual

/-- Of the modules nothing is left but the place of each item. -/
theorem addItem_eq (modules : List String) (d : Declared) :
    ∀ i : Item, addItem modules d i = d.addPlaced (placedItem modules i)
  | .module name items => by rw [addItem, placedItem, addItems_eq]
  | .record s => by rw [addItem, placedItem]; exact addType_eq rfl rfl
  | .enumeration e => by rw [addItem, placedItem]; exact addType_eq rfl rfl
  | .interface t => by rw [addItem, placedItem]; exact addType_eq rfl rfl
  | .implementation i => by rw [addItem, placedItem, addExtension_eq]

theorem addItems_eq (modules : List String) (d : Declared) :
    ∀ is : List Item, addItems modules d is = d.addPlaced (placedItems modules is)
  | [] => by rw [addItems, placedItems, addPlaced_nil]
  | i :: is => by
    rw [addItems, placedItems, addPlaced_append, addItems_eq modules (addItem modules d i) is,
      addItem_eq modules d i]

end

end Declared

theorem declarations_eq (files : List File) :
    declarations files =
      Declared.finish ⟨Placed.types (placedIn files), Placed.extensions (placedIn files)⟩ := by
  suffices h : ∀ d : Declared, files.foldl (fun d f => d.addItems [] f.items) d =
      d.addPlaced (placedIn files) by
    rw [declarations, h]
    rfl
  intro d
  induction files generalizing d with
  | nil => exact (d.addPlaced_nil).symm
  | cons f files ih =>
    rw [List.foldl_cons, ih, d.addItems_eq, ← d.addPlaced_append]
    rfl

theorem filterMap_filter_of_none {α β : Type} {f : α → Option β} {keep : α → Bool}
    (h : ∀ a, keep a = false → f a = none) (l : List α) :
    (l.filter keep).filterMap f = l.filterMap f := by
  rw [List.filterMap_filter]
  refine List.filterMap_congr fun a _ => ?_
  cases hkeep : keep a with
  | false => simp [h a hkeep]
  | true => rfl

/-- Files give one catalog if they have the same types in the same order and the same
implementations in the same order, each item in the same modules, wherever the implementations stand
between the types and however all items are shared out among the files. -/
theorem catalogOf_congr {files others : List File}
    (htypes : (placedIn files).filter (·.2.isType) = (placedIn others).filter (·.2.isType))
    (himplementations : (placedIn files).filter (·.2.isImplementation) =
      (placedIn others).filter (·.2.isImplementation)) :
    catalogOf files = catalogOf others := by
  have hsameTypes : Placed.types (placedIn files) = Placed.types (placedIn others) := by
    rw [Placed.types, Placed.types, ← filterMap_filter_of_none fun p => Placed.type?_of_not_isType,
      htypes, filterMap_filter_of_none fun p => Placed.type?_of_not_isType]
  have hsameExtensions :
      Placed.extensions (placedIn files) = Placed.extensions (placedIn others) := by
    rw [Placed.extensions, Placed.extensions,
      ← filterMap_filter_of_none fun p => Placed.extension?_of_not_isImplementation,
      himplementations,
      filterMap_filter_of_none fun p => Placed.extension?_of_not_isImplementation]
  rw [catalogOf, catalogOf, declarations_eq, declarations_eq, hsameExtensions, hsameTypes]

/-- A struct without content. -/
def unitStruct (name : String) : Item :=
  .record { attributes := [], name, parameters := [], fields := [] }

/-- Functions without parameters, implemented for a type that is given by its name. -/
def implFor (type : String) (functions : List String) : ImplItem where
  traitPath := none
  type := .path false false [.mk type .none]
  functions := functions.map fun name =>
    { attributes := [], isPublic := true, name, inputs := [], output := none }

theorem catalogOf_congr_user :
    catalogOf [{
      items := [.module "api" [unitStruct "User", .implementation (implFor "User" ["size"])],
        unitStruct "Role"]
      count := 2 }] =
    catalogOf [
      { items := [.module "api" [.implementation (implFor "User" ["size"])]], count := 1 },
      { items := [.module "api" [unitStruct "User"], unitStruct "Role"], count := 2 }] :=
  catalogOf_congr rfl rfl

end EndpointDocs.Source

import EndpointDocs.Proofs.Disk
import EndpointDocs.Proofs.Source.Visiting
import EndpointDocs.Source.Folder

namespace EndpointDocs.Source

variable {d d' : Disk} {path text : String} {root : Place} {names : List String} {f : Folder}

/-- Whether a file is left out, by the names on the way to it: it or a directory that it lies in is
hidden or holds the results of a build. -/
def IsSkipped (names : List String) : Prop :=
  ∃ name ∈ names, name = "target" ∨ name.toList.head? = some '.'

instance : DecidablePred IsSkipped :=
  fun names => inferInstanceAs (Decidable (∃ name ∈ names, _))

/-- A file that is named as a source, and whose text is none. -/
structure IsBroken (names : List String) (text : String) : Prop where
  named : names.getLast?.bind Path.extensionOf? = some "rs"
  unreadable : File.parse? text = none

theorem isSource_iff :
    isSource names = true ↔
      ¬ IsSkipped names ∧ names.getLast?.bind Path.extensionOf? = some "rs" := by
  have hany : names.any isLeftOut = true ↔ IsSkipped names := by
    simp [IsSkipped, isLeftOut, or_comm]
  rw [isSource, Bool.and_eq_true, Bool.not_eq_true', ← Bool.not_eq_true, hany, decide_eq_true_eq]

/-- A file below the root, if it is a source. -/
def source? (root : Place) (file : Place × String) : Option (List String × String) :=
  (root.isPrefixOf? file.1).bind fun names => if isSource names then some (names, file.2) else none

theorem source?_append (root : Place) (names : List String) (text : String) :
    source? root (root ++ names, text) = if isSource names then some (names, text) else none := by
  have hprefix : root.isPrefixOf? (root ++ names) = some names :=
    List.isPrefixOf?_eq_some_iff_append_eq.mpr rfl
  rw [source?, hprefix]
  rfl

/-- The sources below a directory, in order. -/
def sourcesIn (d : Disk) (root : Place) : List (List String × String) :=
  d.listing.filterMap (source? root)

private theorem filter_below (d : Disk) (root : Place) :
    (d.below root).filter (fun (names, _) => isSource names) = sourcesIn d root := by
  rw [Disk.below, sourcesIn, ← List.filterMap_eq_filter, List.filterMap_filterMap]
  refine List.filterMap_congr fun file _ => ?_
  obtain ⟨place, text⟩ := file
  simp only [source?]
  cases root.isPrefixOf? place with
  | none => rfl
  | some names =>
    cases names with
    | nil => rfl
    | cons name names => simp [Option.guard]

/-- The items of a source. -/
def read (path : String) (source : List String × String) : Except FileFailure File :=
  File.ofText (source.1.foldl Path.join path) source.2

private theorem toOption_read (path : String) (source : List String × String) :
    (read path source).toOption = File.parse? source.2 := by
  rw [read, File.ofText]
  cases File.parse? source.2 <;> rfl

namespace Folder

variable {results : List (Except FileFailure File)}

def filesOf (results : List (Except FileFailure File)) : List File :=
  results.filterMap (·.toOption)

/-- What is reported of a file. -/
def report? : Except FileFailure File → Option String
  | .ok _ => none
  | .error e => some e.message

/-- Every result is a file or is reported. -/
theorem length_results (results : List (Except FileFailure File)) :
    (filesOf results).length + (results.filterMap report?).length = results.length := by
  induction results with
  | nil => rfl
  | cons r results ih =>
    cases r with
    | ok file =>
      have hfiles : filesOf (.ok file :: results) = file :: filesOf results := rfl
      have hreports : (Except.ok file :: results).filterMap report? =
          results.filterMap report? := rfl
      rw [hfiles, hreports, List.length_cons, List.length_cons]
      omega
    | error e =>
      have hfiles : filesOf (.error e :: results) = filesOf results := rfl
      have hreports : (Except.error e :: results).filterMap report? =
          e.message :: results.filterMap report? := rfl
      rw [hfiles, hreports, List.length_cons, List.length_cons]
      omega

theorem ofResults_eq_ok_iff : ofResults results = .ok f ↔
    filesOf results ≠ [] ∧
      f = ⟨catalogOf (filesOf results), results.length, (filesOf results).length,
        results.filterMap report?⟩ := by
  have heq : ofResults results = if (filesOf results).isEmpty then .error .noneReadable else
      .ok ⟨catalogOf (filesOf results), results.length, (filesOf results).length,
        results.filterMap report?⟩ := rfl
  rw [heq]
  cases hfiles : filesOf results with
  | nil => simp
  | cons file files => simp [eq_comm]

theorem load_eq (hroot : d.place? path = some root) (hdirectory : d.isDirectoryAt root = true) :
    load d path = if (sourcesIn d root).isEmpty then .error (.noSources path) else
      ofResults ((sourcesIn d root).map (read path)) := by
  have hplace : (d.place? path).filter d.isDirectoryAt = some root :=
    Option.filter_eq_some_iff.mpr ⟨hroot, hdirectory⟩
  have hfiles : filesIn d path =
      .ok ((sourcesIn d root).map fun source => (source.1.foldl Path.join path, source.2)) := by
    rw [filesIn, hplace, ← filter_below]
    rfl
  rw [load, hfiles]
  cases hsources : sourcesIn d root with
  | nil => rfl
  | cons source sources =>
    change ofResults (List.map _ (List.map _ _)) = _
    rw [List.map_map]
    rfl

theorem load_eq_ok_iff : load d path = .ok f ↔
    ∃ root, d.place? path = some root ∧ d.isDirectoryAt root = true ∧
      ofResults ((sourcesIn d root).map (read path)) = .ok f := by
  constructor
  · intro h
    cases hplace : (d.place? path).filter d.isDirectoryAt with
    | none =>
      rw [load, filesIn, hplace] at h
      cases h
    | some root =>
      obtain ⟨hroot, hdirectory⟩ := Option.filter_eq_some_iff.mp hplace
      rw [load_eq hroot hdirectory] at h
      split at h
      · cases h
      · exact ⟨root, hroot, hdirectory, h⟩
  · rintro ⟨root, hroot, hdirectory, h⟩
    have hsources : (sourcesIn d root).isEmpty = false := by
      rw [Bool.eq_false_iff, ne_eq, List.isEmpty_iff]
      intro hnone
      rw [hnone] at h
      cases h
    rw [load_eq hroot hdirectory, hsources]
    exact h

/-- Every source is read or reported. -/
theorem scanned_eq (h : load d path = .ok f) : f.scanned = f.parsed + f.warnings.length := by
  obtain ⟨root, -, -, h⟩ := load_eq_ok_iff.mp h
  obtain ⟨-, rfl⟩ := ofResults_eq_ok_iff.mp h
  exact (length_results _).symm

variable {added : List (List String × String)}

/-- Files below a directory, by their places. -/
def under (root : Place) (files : List (List String × String)) : List (Place × String) :=
  files.map fun (names, text) => (root ++ names, text)

/-- The file of a source that lies below the root and can be read. -/
def fileAt? (root : Place) (file : Place × String) : Option File :=
  (source? root file).bind fun source => File.parse? source.2

private theorem filesOf_sources (d : Disk) (root : Place) (path : String) :
    filesOf ((sourcesIn d root).map (read path)) = d.listing.filterMap (fileAt? root) := by
  rw [filesOf, sourcesIn, List.filterMap_map, List.filterMap_filterMap]
  refine List.filterMap_congr fun file _ => ?_
  rw [fileAt?]
  congr 1
  funext source
  exact toOption_read path source

private theorem fileAt?_eq_none (h : IsSkipped names ∨ IsBroken names text) :
    fileAt? root (root ++ names, text) = none := by
  rw [fileAt?, source?_append]
  split
  · next hsource =>
    have hskipped := (isSource_iff.mp hsource).1
    exact (h.resolve_left hskipped).unreadable
  · rfl

/-- Files that give nothing may lie between the others. -/
theorem filesOf_grown (hgrown : d.IsGrown (under root added) d')
    (hidle : ∀ a ∈ added, IsSkipped a.1 ∨ IsBroken a.1 a.2) (path : String) :
    filesOf ((sourcesIn d' root).map (read path)) =
      filesOf ((sourcesIn d root).map (read path)) := by
  have hkept : ∀ file, (fileAt? root file).isSome = false → fileAt? root file = none := by simp
  have hadded : ∀ file ∈ under root added, (fileAt? root file).isSome = false := by
    intro file hfile
    obtain ⟨a, ha, rfl⟩ := List.mem_map.mp hfile
    rw [fileAt?_eq_none (hidle a ha)]
    rfl
  rw [filesOf_sources, filesOf_sources, ← filterMap_filter_of_none hkept d'.listing,
    ← filterMap_filter_of_none hkept d.listing, hgrown.filter_listing hadded]

/-- Of the added files those are looked at that are not skipped. -/
theorem length_sourcesIn_grown (hgrown : d.IsGrown (under root added) d')
    (hidle : ∀ a ∈ added, IsSkipped a.1 ∨ IsBroken a.1 a.2) :
    (sourcesIn d' root).length =
      (sourcesIn d root).length + (added.filter fun a => ¬ IsSkipped a.1).length := by
  have hadded : (under root added).filterMap (source? root) =
      added.filter fun a => ¬ IsSkipped a.1 := by
    rw [under, List.filterMap_map, ← List.filterMap_eq_filter]
    refine List.filterMap_congr fun a ha => ?_
    have hsource : isSource a.1 = true ↔ ¬ IsSkipped a.1 := by
      rw [isSource_iff, and_iff_left_iff_imp]
      exact fun hskipped => ((hidle a ha).resolve_left hskipped).named
    change source? root (root ++ a.1, a.2) = _
    rw [source?_append]
    simp only [hsource, Option.guard, decide_eq_true_eq]
  have hfiles : d'.listing.Perm (d.listing ++ under root added) :=
    d'.listing_perm.trans (hgrown.files.trans (d.listing_perm.symm.append_right _))
  rw [sourcesIn, (hfiles.filterMap _).length_eq, List.filterMap_append, List.length_append, hadded]
  rfl

/-- Files that are skipped, and sources that cannot be read, change nothing about the types that a
folder declares, wherever they lie. The sources among them are counted and reported. Directories
alone change nothing at all. -/
theorem load_grown (hload : load d path = .ok f) (hroot : d.place? path = some root)
    (hgrown : d.IsGrown (under root added) d')
    (hidle : ∀ a ∈ added, IsSkipped a.1 ∨ IsBroken a.1 a.2) :
    ∃ f', load d' path = .ok f' ∧ f'.catalog = f.catalog ∧ f'.parsed = f.parsed ∧
      f'.scanned = f.scanned + (added.filter fun a => ¬ IsSkipped a.1).length ∧
      f'.warnings.length =
        f.warnings.length + (added.filter fun a => ¬ IsSkipped a.1).length ∧
      f.warnings.Sublist f'.warnings := by
  obtain ⟨place, hplace, hdirectory, hresults⟩ := load_eq_ok_iff.mp hload
  obtain rfl : place = root := Option.some.inj (hplace.symm.trans hroot)
  obtain ⟨hfiles, rfl⟩ := ofResults_eq_ok_iff.mp hresults
  have hsame := filesOf_grown hgrown hidle path
  have hmore := length_sourcesIn_grown hgrown hidle
  have hload' := load_eq_ok_iff.mpr ⟨place, hgrown.place?_eq hroot, hgrown.isDirectoryAt hdirectory,
    ofResults_eq_ok_iff.mpr ⟨hsame ▸ hfiles, rfl⟩⟩
  refine ⟨_, hload', ?_, ?_, ?_, ?_, ?_⟩
  · exact congrArg catalogOf hsame
  · exact congrArg List.length hsame
  · simpa using hmore
  · have hbefore := scanned_eq hload
    have hafter := scanned_eq hload'
    simp only [List.length_map, hsame] at hbefore hafter ⊢
    omega
  · exact ((hgrown.listing_sublist.filterMap _).map _).filterMap _

/-- A folder with one source. -/
def shop : Disk :=
  { files := [(["shop", "model.rs"], "struct User;")] }

/-- A source that cannot be read, one among the results of a build and one that is hidden. -/
def idleFiles : List (List String × String) :=
  [(["api", "user.rs"], "struct User \x7d"), (["target", "model.rs"], "struct Built;"),
    (["api", ".user.rs"], "struct User;")]

/-- The folder with more files, put there one after the other, and with a new directory. -/
def fullShop : Disk where
  files := (under ["shop"] idleFiles).foldl (fun files f => Disk.put f.1 f.2 files) shop.files
  directories := [["shop", "docs"]]

theorem load_grown_shop :
    ∃ f f', load shop "shop" = .ok f ∧ load fullShop "shop" = .ok f' ∧
      f'.catalog = f.catalog ∧ f'.parsed = f.parsed ∧ f'.scanned = f.scanned + 1 ∧
      f'.warnings.length = f.warnings.length + 1 ∧ f.warnings.Sublist f'.warnings := by
  have hloads : (load shop "shop").toOption.isSome = true := by decide +kernel
  obtain ⟨f, hf⟩ : ∃ f, load shop "shop" = .ok f := by
    cases h : load shop "shop" with
    | ok f => exact ⟨f, rfl⟩
    | error e => rw [h] at hloads; cases hloads
  have hgrown : shop.IsGrown (under ["shop"] idleFiles) fullShop :=
    Disk.isGrown_put (by decide) (List.nil_subset _)
  have hidle : ∀ a ∈ idleFiles, IsSkipped a.1 ∨ IsBroken a.1 a.2 := by
    have hbroken : IsBroken ["api", "user.rs"] "struct User \x7d" :=
      { named := by decide
        unreadable := Option.isNone_iff_eq_none.mp (by decide) }
    intro a ha
    rcases List.mem_cons.mp ha with rfl | ha
    · exact .inr hbroken
    · exact .inl ((by decide : ∀ a ∈ idleFiles.tail, IsSkipped a.1) a ha)
  obtain ⟨f', hload', hrest⟩ := load_grown hf (by decide) hgrown hidle
  exact ⟨f, f', hf, hload', hrest⟩

end Folder

end EndpointDocs.Source
